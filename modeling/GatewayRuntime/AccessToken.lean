import GatewayRuntime.Lib.Run
import GatewayRuntime.RefreshLock
import GatewayRuntime.TokenStore

/-!
# Concurrent access-token calls and logout

`StoreManager.AccessToken` of `internal/token/manager.go` and `Service.Logout` of
`internal/auth/service.go` for one session, as the steps of a transition system.
A step is one operation on the token store, the session store, the lock or the
identity provider, or one reading of the clock with the decision taken on it.
Any number of calls and one logout interleave.

Where a call stands is its `Pc`; the functions `after…` are the code between two
operations.  An `Outcome` says how an operation ends: as the store says, with a
fault (a failing store, or a cancelled context), or with what the identity
provider answered.

The stores and the lock are arbitrary; the results of later modules say which
of them they need.
-/

namespace GatewayRuntime
namespace Token

/-- The settings of a `StoreManager`; its collaborators may be absent. -/
structure Manager where
  hasStore : Bool
  hasSessions : Bool
  hasRefresher : Bool
  hasLocker : Bool
  refreshBefore : Duration
  lockTTL : Duration

namespace Manager

variable (m : Manager)

/-- The width of the refresh window, thirty seconds when none is set. -/
def before : Duration :=
  if m.refreshBefore ≤ 0 then 30 * Duration.second else m.refreshBefore

/-- `StoreManager.needsRefresh`. -/
def needsRefresh (now : Int) (x : TokenSet) : Bool :=
  if x.expiryUnix ≤ 0 then false
  else !GoTime.after (GoTime.unix x.expiryUnix) (GoTime.add now m.before)

/-- `StoreManager.lockTTL`. -/
def effectiveLockTTL : Duration :=
  if 0 < m.lockTTL then m.lockTTL else 10 * Duration.second

end Manager

/-- Where a call stands: the operation or the decision it takes next.  Behind
the lock a call carries its handle, `none` without a lock. -/
inductive Pc where
  | idle
  | start
  | checkFirst (cur : TokenSet)
  | enterLock
  | awaitLock (h : Nat)
  | reread (h : Option Nat)
  | checkSecond (h : Option Nat) (cur : TokenSet)
  | refresh (h : Option Nat) (cur : TokenSet)
  | inFlight (h : Option Nat) (cur : TokenSet)
  | checkAnswer (h : Option Nat) (cur answer : TokenSet)
  | expiry (h : Option Nat) (fresh : TokenSet)
  | persist (h : Option Nat) (fresh : TokenSet) (expiresAt : Int)
  | dropTokens (h : Option Nat) (err : Err)
  | dropSession (h : Option Nat) (err : Err)
  | unlock (h : Nat) (result : Except Err String)
  | done (result : Except Err String)

section Decisions

variable (m : Manager)

/-- Return, through the deferred unlock if there is a lock. -/
def leave (h : Option Nat) (result : Except Err String) : Pc :=
  match h with
  | none => .done result
  | some h => .unlock h result

/-- After the first `Store.Get`. -/
def afterFirstGet : Except Err TokenSet → Pc
  | .error e => .done (.error e)
  | .ok cur => .checkFirst cur

/-- The tests on the set first read. -/
def afterFirstCheck (now : Int) (cur : TokenSet) : Pc :=
  if cur.accessToken = "" then .done (.error (.text "access token missing"))
  else if m.needsRefresh now cur = false then .done (.ok cur.accessToken)
  else if cur.refreshToken = "" ∨ m.hasRefresher = false then
    .done (.error (.leaf .refreshUnavailable))
  else if m.hasLocker then .enterLock
  else .reread none

/-- `Lock` returned an error. -/
def lockFailed (e : Err) : Pc :=
  .done (.error (.wrap "acquire refresh lock: " "" e))

/-- After the `Store.Get` behind the lock. -/
def afterReread (h : Option Nat) : Except Err TokenSet → Pc
  | .error e => leave h (.error e)
  | .ok cur => .checkSecond h cur

/-- The tests on the set read behind the lock. -/
def afterSecondCheck (now : Int) (h : Option Nat) (cur : TokenSet) : Pc :=
  if m.needsRefresh now cur = false then leave h (.ok cur.accessToken)
  else if cur.refreshToken = "" then leave h (.error (.leaf .refreshUnavailable))
  else .refresh h cur

/-- After `RefreshTokens`. -/
def afterRefresh (h : Option Nat) (cur : TokenSet) : Except Err TokenSet → Pc
  | .error e => .dropTokens h (.wrap "" (": " ++ Err.message e) (.leaf .refreshFailed))
  | .ok answer => .checkAnswer h cur answer

/-- The refreshed set, with the old refresh and id tokens where it has none. -/
def merge (cur answer : TokenSet) : TokenSet where
  accessToken := answer.accessToken
  refreshToken := if answer.refreshToken = "" then cur.refreshToken else answer.refreshToken
  idToken := if answer.idToken = "" then cur.idToken else answer.idToken
  expiryUnix := answer.expiryUnix

/-- The tests on the answer of the identity provider. -/
def afterAnswerCheck (now : Int) (h : Option Nat) (cur answer : TokenSet) : Pc :=
  if answer.accessToken = "" ∨ answer.expiryUnix.toInt ≤ GoTime.unixSeconds now then
    .dropTokens h (.wrap "" ": invalid refreshed token set" (.leaf .refreshFailed))
  else .expiry h (merge cur answer)

/-- After `Sessions.Get` in `sessionExpiry`. -/
def afterExpiry (h : Option Nat) (fresh : TokenSet) : Except Err Session → Pc
  | .error e => .dropTokens h e
  | .ok v => .persist h fresh v.expiresAt

/-- After `Store.Put`. -/
def afterPersist (h : Option Nat) (fresh : TokenSet) : Except Err Unit → Pc
  | .error e => leave h (.error (.wrap "persist refreshed token: " "" e))
  | .ok () => leave h (.ok fresh.accessToken)

/-- After `Store.Delete` in `invalidate`. -/
def afterDropTokens (h : Option Nat) (err : Err) : Pc :=
  if m.hasSessions then .dropSession h err else leave h (.error err)

end Decisions

/-- Where `Service.Logout` stands. -/
inductive LogoutPc where
  | notCalled
  | loadTokens
  | deleteTokens (idToken : String)
  | deleteSession (idToken : String)
  | endSession (idToken : String)
  | returned (result : Except Err String)

/-- The parameters of a logout. -/
structure LogoutRequest where
  global : Bool
  logoutReturn : String

/-- After `Tokens.Get` in `Logout`. -/
def afterLoad : Except Err TokenSet → LogoutPc
  | .ok ts => .deleteTokens ts.idToken
  | .error e =>
      if GoError.is e .tokenNotFound then .deleteTokens ""
      else .returned (.error (.wrap "load logout token: " "" e))

/-- After `Sessions.Delete` in `Logout`. -/
def afterSessionDeleted (req : LogoutRequest) (idToken : String) : LogoutPc :=
  if req.global = true ∧ idToken ≠ "" then .endSession idToken
  else .returned (.ok req.logoutReturn)

/-- How an operation ends. -/
inductive Outcome where
  | ok
  | fault (e : Err)
  | answer (r : Except Err TokenSet)
  | url (r : Except Err String)

namespace Outcome

/-- The operation is carried out, or it fails and changes nothing. -/
def apply {σ α : Type} (o : Outcome) (before : σ) (normal : σ × Except Err α) :
    Option (σ × Except Err α) :=
  match o with
  | ok => some normal
  | fault e => some (before, .error e)
  | _ => none

/-- An operation whose error the caller drops. -/
def applySilently {σ : Type} (o : Outcome) (before normal : σ) : Option σ :=
  match o with
  | ok => some normal
  | fault _ => some before
  | _ => none

end Outcome

/-- The events. -/
inductive Event where
  | spawn (i : Nat)
  | call (i : Nat) (o : Outcome)
  | logout (o : Outcome)
  | tick (t : Int)
  | expireLock

/-- The state: the clock, the stores, the lock, the calls, the logout, and the
refresh tokens presented to the identity provider so far. -/
structure World (T : Store) (S : Session.Store) (L : Locker) where
  now : Int
  tokens : T.State
  sessions : S.State
  lock : L.State
  calls : Nat → Pc
  logout : LogoutPc
  presented : List String

/-- What does not change during a run. -/
structure Setting where
  manager : Manager
  sid : String
  request : LogoutRequest

/-- The key of the refresh lock. -/
def Setting.key (c : Setting) : String :=
  "token-refresh:" ++ c.sid

section Steps

variable {T : Store} {S : Session.Store} {L : Locker} (c : Setting)

/-- Move call `i`. -/
def World.goto (w : World T S L) (i : Nat) (pc : Pc) : World T S L :=
  { w with calls := Function.update w.calls i pc }

/-- One step of call `i`. -/
def callStep (w : World T S L) (i : Nat) (o : Outcome) : Option (World T S L) :=
  match w.calls i with
  | .idle => none
  | .start =>
      (o.apply w.tokens (T.get w.tokens w.now c.sid)).map fun r =>
        { w with tokens := r.1 }.goto i (afterFirstGet r.2)
  | .checkFirst cur =>
      match o with
      | .ok => some (w.goto i (afterFirstCheck c.manager w.now cur))
      | _ => none
  | .enterLock =>
      match o with
      | .ok =>
          some ({ w with lock := (L.enter w.lock c.key i).1 }.goto i
            (.awaitLock (L.enter w.lock c.key i).2))
      | .fault e => some (w.goto i (lockFailed e))
      | _ => none
  | .awaitLock h =>
      match o with
      | .ok =>
          (L.acquire w.lock w.now c.manager.effectiveLockTTL c.key h).map fun lock =>
            { w with lock := lock }.goto i (.reread (some h))
      | .fault e => some (w.goto i (lockFailed e))
      | _ => none
  | .reread h =>
      (o.apply w.tokens (T.get w.tokens w.now c.sid)).map fun r =>
        { w with tokens := r.1 }.goto i (afterReread h r.2)
  | .checkSecond h cur =>
      match o with
      | .ok => some (w.goto i (afterSecondCheck c.manager w.now h cur))
      | _ => none
  | .refresh h cur =>
      match o with
      | .ok =>
          some ({ w with presented := cur.refreshToken :: w.presented }.goto i (.inFlight h cur))
      | _ => none
  | .inFlight h cur =>
      match o with
      | .answer r => some (w.goto i (afterRefresh h cur r))
      | _ => none
  | .checkAnswer h cur answer =>
      match o with
      | .ok => some (w.goto i (afterAnswerCheck w.now h cur answer))
      | _ => none
  | .expiry h fresh =>
      if c.manager.hasSessions then
        (o.apply w.sessions (S.get w.sessions w.now c.sid)).map fun r =>
          { w with sessions := r.1 }.goto i (afterExpiry h fresh r.2)
      else
        some (w.goto i
          (.dropTokens h (.text "session store is required for token refresh")))
  | .persist h fresh expiresAt =>
      (o.apply w.tokens (T.put w.tokens w.now c.sid fresh expiresAt)).map fun r =>
        { w with tokens := r.1 }.goto i (afterPersist h fresh r.2)
  | .dropTokens h err =>
      (o.applySilently w.tokens (T.delete w.tokens c.sid)).map fun tokens =>
        { w with tokens := tokens }.goto i (afterDropTokens c.manager h err)
  | .dropSession h err =>
      (o.applySilently w.sessions (S.delete w.sessions c.sid)).map fun sessions =>
        { w with sessions := sessions }.goto i (leave h (.error err))
  | .unlock h result =>
      match o with
      | .ok => (L.release w.lock c.key h).map fun lock =>
          { w with lock := lock }.goto i (.done result)
      | .fault _ => some (w.goto i (.done result))
      | _ => none
  | .done _ => none

/-- One step of the logout. -/
def logoutStep (w : World T S L) (o : Outcome) : Option (World T S L) :=
  match w.logout with
  | .notCalled =>
      match o with
      | .ok =>
          if c.sid = "" then some { w with logout := .returned (.ok c.request.logoutReturn) }
          else some { w with logout := .loadTokens }
      | _ => none
  | .loadTokens =>
      (o.apply w.tokens (T.get w.tokens w.now c.sid)).map fun r =>
        { w with tokens := r.1, logout := afterLoad r.2 }
  | .deleteTokens idToken =>
      match o with
      | .ok =>
          some { w with
            tokens := T.delete w.tokens c.sid
            logout := .deleteSession idToken }
      | .fault e =>
          some { w with logout := .returned (.error (.wrap "delete logout token: " "" e)) }
      | _ => none
  | .deleteSession idToken =>
      match o with
      | .ok =>
          some { w with
            sessions := S.delete w.sessions c.sid
            logout := afterSessionDeleted c.request idToken }
      | .fault e =>
          some { w with logout := .returned (.error (.wrap "delete session: " "" e)) }
      | _ => none
  | .endSession _ =>
      match o with
      | .url r => some { w with logout := .returned r }
      | _ => none
  | .returned _ => none

/-- The first place of a call; without a store it returns at once. -/
def entry : Pc :=
  if c.manager.hasStore then .start
  else .done (.error (.text "token store is not configured"))

/-- One event. -/
def step (w : World T S L) : Event → Option (World T S L)
  | .spawn i =>
      match w.calls i with
      | .idle => some (w.goto i (entry c))
      | _ => none
  | .call i o => callStep c w i o
  | .logout o => logoutStep c w o
  | .tick t => if w.now ≤ t then some { w with now := t } else none
  | .expireLock => (L.expire w.lock w.now c.key).map fun lock => { w with lock := lock }

end Steps

section Moves

variable {T : Store} {S : Session.Store} {L : Locker} {c : Setting}
  {w w' : World T S L} {i j : Nat} {o : Outcome}

@[simp] theorem goto_calls_self (w : World T S L) (i : Nat) (pc : Pc) :
    (w.goto i pc).calls i = pc := by
  simp [World.goto]

theorem goto_calls_of_ne (w : World T S L) {i j : Nat} (pc : Pc) (hj : j ≠ i) :
    (w.goto i pc).calls j = w.calls j := by
  simp [World.goto, hj]

@[simp] theorem goto_presented (w : World T S L) (i : Nat) (pc : Pc) :
    (w.goto i pc).presented = w.presented := by
  rfl

/-- How the effect of an operation on its store can end. -/
theorem apply_cases
    {σ α : Type} {before : σ} {normal r : σ × Except Err α}
    (h : o.apply before normal = some r) :
    (o = .ok ∧ r = normal) ∨ ∃ e, o = .fault e ∧ r = (before, .error e) := by
  cases o with
  | ok =>
      cases h
      exact Or.inl ⟨rfl, rfl⟩
  | fault e =>
      cases h
      exact Or.inr ⟨e, rfl, rfl⟩
  | answer r | url r =>
      cases h

/-- The handle that a call carries behind the lock. -/
def Pc.holder : Pc → Option Nat
  | .reread h => h
  | .checkSecond h _ => h
  | .refresh h _ => h
  | .inFlight h _ => h
  | .checkAnswer h _ _ => h
  | .expiry h _ => h
  | .persist h _ _ => h
  | .dropTokens h _ => h
  | .dropSession h _ => h
  | .unlock h _ => some h
  | _ => none

/-- The call is between taking the lock and the return of `RefreshTokens`. -/
def Pc.refreshing : Pc → Bool
  | .reread _ => true
  | .checkSecond _ _ => true
  | .refresh _ _ => true
  | .inFlight _ _ => true
  | _ => false

/-- The call is behind the lock. -/
def Pc.inside : Pc → Bool
  | .reread _ => true
  | .checkSecond _ _ => true
  | .refresh _ _ => true
  | .inFlight _ _ => true
  | .checkAnswer _ _ _ => true
  | .expiry _ _ => true
  | .persist _ _ _ => true
  | .dropTokens _ _ => true
  | .dropSession _ _ => true
  | .unlock _ _ => true
  | _ => false

@[simp] theorem holder_leave (h : Option Nat) (result : Except Err String) :
    (leave h result).holder = h := by
  cases h <;> rfl

@[simp] theorem refreshing_leave (h : Option Nat) (result : Except Err String) :
    (leave h result).refreshing = false := by
  cases h <;> rfl

/-- A call that has just been made has nothing to do with the lock. -/
theorem entry_outside (c : Setting) :
    (entry c).holder = none ∧ (entry c).refreshing = false ∧ (entry c).inside = false ∧
      ∀ k, entry c ≠ .awaitLock k := by
  unfold entry
  split_ifs <;> simp [Pc.holder, Pc.refreshing, Pc.inside]

/-- **The steps of a call**, from the place where it stands: it makes its next operation on a
store, on the lock or at the provider, or the operation fails. -/
inductive CallEffect (c : Setting) (w : World T S L) (i : Nat) :
    Pc → Outcome → World T S L → Prop where
  | firstGet :
      CallEffect c w i .start .ok
        ({ w with tokens := (T.get w.tokens w.now c.sid).1 }.goto i
          (afterFirstGet (T.get w.tokens w.now c.sid).2))
  | firstGetFault {e : Err} :
      CallEffect c w i .start (.fault e) (w.goto i (afterFirstGet (.error e)))
  | firstCheck {cur : TokenSet} :
      CallEffect c w i (.checkFirst cur) .ok (w.goto i (afterFirstCheck c.manager w.now cur))
  | enter :
      CallEffect c w i .enterLock .ok
        ({ w with lock := (L.enter w.lock c.key i).1 }.goto i
          (.awaitLock (L.enter w.lock c.key i).2))
  | enterFault {e : Err} :
      CallEffect c w i .enterLock (.fault e) (w.goto i (lockFailed e))
  | acquire {h : Nat} {lock : L.State}
      (hacquire : L.acquire w.lock w.now c.manager.effectiveLockTTL c.key h = some lock) :
      CallEffect c w i (.awaitLock h) .ok ({ w with lock := lock }.goto i (.reread (some h)))
  | acquireFault {h : Nat} {e : Err} :
      CallEffect c w i (.awaitLock h) (.fault e) (w.goto i (lockFailed e))
  | reread {h : Option Nat} :
      CallEffect c w i (.reread h) .ok
        ({ w with tokens := (T.get w.tokens w.now c.sid).1 }.goto i
          (afterReread h (T.get w.tokens w.now c.sid).2))
  | rereadFault {h : Option Nat} {e : Err} :
      CallEffect c w i (.reread h) (.fault e) (w.goto i (afterReread h (.error e)))
  | secondCheck {h : Option Nat} {cur : TokenSet} :
      CallEffect c w i (.checkSecond h cur) .ok
        (w.goto i (afterSecondCheck c.manager w.now h cur))
  | refresh {h : Option Nat} {cur : TokenSet} :
      CallEffect c w i (.refresh h cur) .ok
        ({ w with presented := cur.refreshToken :: w.presented }.goto i (.inFlight h cur))
  | answer {h : Option Nat} {cur : TokenSet} {r : Except Err TokenSet} :
      CallEffect c w i (.inFlight h cur) (.answer r) (w.goto i (afterRefresh h cur r))
  | answerCheck {h : Option Nat} {cur answer : TokenSet} :
      CallEffect c w i (.checkAnswer h cur answer) .ok
        (w.goto i (afterAnswerCheck w.now h cur answer))
  | expiry {h : Option Nat} {fresh : TokenSet} :
      CallEffect c w i (.expiry h fresh) .ok
        ({ w with sessions := (S.get w.sessions w.now c.sid).1 }.goto i
          (afterExpiry h fresh (S.get w.sessions w.now c.sid).2))
  | expiryFault {h : Option Nat} {fresh : TokenSet} {e : Err} :
      CallEffect c w i (.expiry h fresh) (.fault e) (w.goto i (afterExpiry h fresh (.error e)))
  | noSessions {h : Option Nat} {fresh : TokenSet} {o : Outcome}
      (hsessions : c.manager.hasSessions = false) :
      CallEffect c w i (.expiry h fresh) o
        (w.goto i (.dropTokens h (.text "session store is required for token refresh")))
  | persist {h : Option Nat} {fresh : TokenSet} {expiresAt : Int} :
      CallEffect c w i (.persist h fresh expiresAt) .ok
        ({ w with tokens := (T.put w.tokens w.now c.sid fresh expiresAt).1 }.goto i
          (afterPersist h fresh (T.put w.tokens w.now c.sid fresh expiresAt).2))
  | persistFault {h : Option Nat} {fresh : TokenSet} {expiresAt : Int} {e : Err} :
      CallEffect c w i (.persist h fresh expiresAt) (.fault e)
        (w.goto i (afterPersist h fresh (.error e)))
  | dropTokens {h : Option Nat} {err : Err} :
      CallEffect c w i (.dropTokens h err) .ok
        ({ w with tokens := T.delete w.tokens c.sid }.goto i (afterDropTokens c.manager h err))
  | dropTokensFault {h : Option Nat} {err e : Err} :
      CallEffect c w i (.dropTokens h err) (.fault e) (w.goto i (afterDropTokens c.manager h err))
  | dropSession {h : Option Nat} {err : Err} :
      CallEffect c w i (.dropSession h err) .ok
        ({ w with sessions := S.delete w.sessions c.sid }.goto i (leave h (.error err)))
  | dropSessionFault {h : Option Nat} {err e : Err} :
      CallEffect c w i (.dropSession h err) (.fault e) (w.goto i (leave h (.error err)))
  | release {h : Nat} {result : Except Err String} {lock : L.State}
      (hrelease : L.release w.lock c.key h = some lock) :
      CallEffect c w i (.unlock h result) .ok ({ w with lock := lock }.goto i (.done result))
  | abandon {h : Nat} {result : Except Err String} {e : Err} :
      CallEffect c w i (.unlock h result) (.fault e) (w.goto i (.done result))

/-- A step is one of them. -/
theorem callStep_effect
    (h : callStep c w i o = some w') :
    CallEffect c w i (w.calls i) o w' := by
  unfold callStep at h
  cases hpc : w.calls i with
  | idle | done result =>
      simp [hpc] at h
  | start =>
      simp only [hpc, Option.map_eq_some_iff] at h
      obtain ⟨r, hr, rfl⟩ := h
      rcases apply_cases hr with ⟨rfl, rfl⟩ | ⟨e, rfl, rfl⟩
      · exact .firstGet
      · exact .firstGetFault
  | checkFirst cur =>
      cases o <;> simp [hpc] at h
      subst h
      exact .firstCheck
  | enterLock =>
      cases o <;> simp [hpc] at h <;> subst h
      · exact .enter
      · exact .enterFault
  | awaitLock k =>
      cases o <;> simp [hpc] at h
      · obtain ⟨lock, hlock, rfl⟩ := h
        exact .acquire hlock
      · subst h
        exact .acquireFault
  | reread k =>
      simp only [hpc, Option.map_eq_some_iff] at h
      obtain ⟨r, hr, rfl⟩ := h
      rcases apply_cases hr with ⟨rfl, rfl⟩ | ⟨e, rfl, rfl⟩
      · exact .reread
      · exact .rereadFault
  | checkSecond k cur =>
      cases o <;> simp [hpc] at h
      subst h
      exact .secondCheck
  | refresh k cur =>
      cases o <;> simp [hpc] at h
      subst h
      exact .refresh
  | inFlight k cur =>
      cases o <;> simp [hpc] at h
      subst h
      exact .answer
  | checkAnswer k cur answer =>
      cases o <;> simp [hpc] at h
      subst h
      exact .answerCheck
  | expiry k fresh =>
      simp only [hpc] at h
      split_ifs at h with hsessions
      · simp only [Option.map_eq_some_iff] at h
        obtain ⟨r, hr, rfl⟩ := h
        rcases apply_cases hr with ⟨rfl, rfl⟩ | ⟨e, rfl, rfl⟩
        · exact .expiry
        · exact .expiryFault
      · cases h
        exact .noSessions (by simpa using hsessions)
  | persist k fresh expiresAt =>
      simp only [hpc, Option.map_eq_some_iff] at h
      obtain ⟨r, hr, rfl⟩ := h
      rcases apply_cases hr with ⟨rfl, rfl⟩ | ⟨e, rfl, rfl⟩
      · exact .persist
      · exact .persistFault
  | dropTokens k err =>
      cases o <;> simp [hpc, Outcome.applySilently] at h <;> subst h
      · exact .dropTokens
      · exact .dropTokensFault
  | dropSession k err =>
      cases o <;> simp [hpc, Outcome.applySilently] at h <;> subst h
      · exact .dropSession
      · exact .dropSessionFault
  | unlock k result =>
      cases o <;> simp [hpc] at h
      · obtain ⟨lock, hlock, rfl⟩ := h
        exact .release hlock
      · subst h
        exact .abandon

/-- The effect of a step of call `i` on the operations of the stores: the token
store is read, deleted from, left alone, or written by a `persist` step. -/
inductive TokenEffect (c : Setting) (w : World T S L) (i : Nat) : T.State → Prop where
  | unchanged : TokenEffect c w i w.tokens
  | read : TokenEffect c w i (T.get w.tokens w.now c.sid).1
  | delete : TokenEffect c w i (T.delete w.tokens c.sid)
  | put {h : Option Nat} {fresh : TokenSet} {expiresAt : Int}
      (hpc : w.calls i = .persist h fresh expiresAt) :
      TokenEffect c w i (T.put w.tokens w.now c.sid fresh expiresAt).1

/-- The effect of a step of call `i` on the lock, with the place the call goes
to. -/
inductive LockEffect (c : Setting) (w : World T S L) (i : Nat) : L.State → Pc → Prop where
  | keep {pc : Pc}
      (hholder : pc.holder = (w.calls i).holder)
      (hawait : ∀ h, pc ≠ .awaitLock h)
      (hinside : c.manager.hasLocker = true →
        (pc.refreshing = true → (w.calls i).refreshing = true) ∧
          (pc.inside = true → (w.calls i).inside = true)) :
      LockEffect c w i w.lock pc
  | enter
      (hpc : w.calls i = .enterLock) :
      LockEffect c w i (L.enter w.lock c.key i).1 (.awaitLock (L.enter w.lock c.key i).2)
  | acquire {h : Nat} {lock : L.State}
      (hpc : w.calls i = .awaitLock h)
      (hacquire :
        L.acquire w.lock w.now c.manager.effectiveLockTTL c.key h = some lock) :
      LockEffect c w i lock (.reread (some h))
  | release {h : Nat} {result : Except Err String} {lock : L.State}
      (hpc : w.calls i = .unlock h result)
      (hrelease : L.release w.lock c.key h = some lock) :
      LockEffect c w i lock (.done result)
  | abandon {h : Nat} {result : Except Err String}
      (hpc : w.calls i = .unlock h result) :
      LockEffect c w i w.lock (.done result)

/-- **What a step of a call can do**: only that call moves, neither the clock nor
the logout changes, and the effects on the token store and on the lock are of the
kinds listed. -/
structure Moved (c : Setting) (w w' : World T S L) (i : Nat) (pc : Pc) : Prop where
  calls : w'.calls = Function.update w.calls i pc
  now : w'.now = w.now
  logout : w'.logout = w.logout
  tokens : TokenEffect c w i w'.tokens
  lock : LockEffect c w i w'.lock pc

section Keep

variable {k : Option Nat}

theorem keep_firstGet
    (hpc : w.calls i = .start) (r : Except Err TokenSet) :
    LockEffect c w i w.lock (afterFirstGet r) := by
  refine .keep ?_ ?_ ?_
  · cases r <;> simp [afterFirstGet, hpc, Pc.holder]
  · cases r <;> simp [afterFirstGet]
  · cases r <;> simp [afterFirstGet, Pc.refreshing, Pc.inside]

theorem keep_firstCheck
    {cur : TokenSet} (hpc : w.calls i = .checkFirst cur) :
    LockEffect c w i w.lock (afterFirstCheck c.manager w.now cur) := by
  refine .keep ?_ ?_ ?_
  · rw [hpc]
    unfold afterFirstCheck
    split_ifs <;> rfl
  · intro h
    unfold afterFirstCheck
    split_ifs <;> simp
  · intro hlocker
    unfold afterFirstCheck
    split_ifs <;> simp [Pc.refreshing, Pc.inside]

theorem keep_lockFailed
    (hholder : (w.calls i).holder = none) (e : Err) :
    LockEffect c w i w.lock (lockFailed e) := by
  refine .keep ?_ ?_ ?_
  · rw [hholder]
    rfl
  · simp [lockFailed]
  · simp [lockFailed, Pc.refreshing, Pc.inside]

theorem keep_reread
    (hpc : w.calls i = .reread k) (r : Except Err TokenSet) :
    LockEffect c w i w.lock (afterReread k r) := by
  refine .keep ?_ ?_ ?_
  · cases r <;> cases k <;> simp [afterReread, leave, hpc, Pc.holder]
  · cases r <;> cases k <;> simp [afterReread, leave]
  · simp [hpc, Pc.refreshing, Pc.inside]

theorem keep_secondCheck
    {cur : TokenSet} (hpc : w.calls i = .checkSecond k cur) :
    LockEffect c w i w.lock (afterSecondCheck c.manager w.now k cur) := by
  refine .keep ?_ ?_ ?_
  · rw [hpc]
    unfold afterSecondCheck
    cases k <;> split_ifs <;> rfl
  · intro h
    unfold afterSecondCheck
    cases k <;> split_ifs <;> simp [leave]
  · simp [hpc, Pc.refreshing, Pc.inside]

theorem keep_answer
    {cur : TokenSet} (hpc : w.calls i = .inFlight k cur) (r : Except Err TokenSet) :
    LockEffect c w i w.lock (afterRefresh k cur r) := by
  refine .keep ?_ ?_ ?_
  · cases r <;> simp [hpc, afterRefresh, Pc.holder]
  · cases r <;> simp [afterRefresh]
  · simp [hpc, Pc.refreshing, Pc.inside]

theorem keep_answerCheck
    {cur answer : TokenSet} (hpc : w.calls i = .checkAnswer k cur answer) :
    LockEffect c w i w.lock (afterAnswerCheck w.now k cur answer) := by
  refine .keep ?_ ?_ ?_
  · rw [hpc]
    unfold afterAnswerCheck
    split_ifs <;> rfl
  · intro h
    unfold afterAnswerCheck
    split_ifs <;> simp
  · intro _
    unfold afterAnswerCheck
    split_ifs <;> simp [hpc, Pc.refreshing, Pc.inside]

theorem keep_expiry
    {fresh : TokenSet} (hpc : w.calls i = .expiry k fresh) (r : Except Err Session) :
    LockEffect c w i w.lock (afterExpiry k fresh r) := by
  refine .keep ?_ ?_ ?_
  · cases r <;> simp [afterExpiry, hpc, Pc.holder]
  · cases r <;> simp [afterExpiry]
  · cases r <;> simp [hpc, afterExpiry, Pc.refreshing, Pc.inside]

theorem keep_persist
    {fresh : TokenSet} {expiresAt : Int} (hpc : w.calls i = .persist k fresh expiresAt)
    (r : Except Err Unit) :
    LockEffect c w i w.lock (afterPersist k fresh r) := by
  refine .keep ?_ ?_ ?_
  · cases r <;> cases k <;> simp [afterPersist, leave, hpc, Pc.holder]
  · cases r <;> cases k <;> simp [afterPersist, leave]
  · cases r <;> simp [hpc, afterPersist, Pc.inside]

theorem keep_dropTokens
    {err : Err} (hpc : w.calls i = .dropTokens k err) :
    LockEffect c w i w.lock (afterDropTokens c.manager k err) := by
  refine .keep ?_ ?_ ?_
  · rw [hpc]
    unfold afterDropTokens
    cases k <;> split_ifs <;> rfl
  · unfold afterDropTokens
    cases k <;> split_ifs <;> simp [leave]
  · unfold afterDropTokens
    cases k <;> split_ifs <;> simp [hpc, leave, Pc.refreshing, Pc.inside]

theorem keep_dropSession
    {err : Err} (hpc : w.calls i = .dropSession k err) :
    LockEffect c w i w.lock (leave k (.error err)) := by
  refine .keep ?_ ?_ ?_
  · rw [hpc, holder_leave]
    rfl
  · cases k <;> simp [leave]
  · simp [hpc, Pc.inside]

end Keep

theorem callStep_moved
    (h : callStep c w i o = some w') :
    ∃ pc, Moved c w w' i pc := by
  have heffect := callStep_effect h
  generalize hpc : w.calls i = pc at heffect
  cases heffect with
  | firstGet => exact ⟨_, rfl, rfl, rfl, .read, keep_firstGet hpc _⟩
  | firstGetFault => exact ⟨_, rfl, rfl, rfl, .unchanged, keep_firstGet hpc _⟩
  | firstCheck => exact ⟨_, rfl, rfl, rfl, .unchanged, keep_firstCheck hpc⟩
  | enter => exact ⟨_, rfl, rfl, rfl, .unchanged, .enter hpc⟩
  | enterFault | acquireFault =>
      exact ⟨_, rfl, rfl, rfl, .unchanged, keep_lockFailed (by rw [hpc]; rfl) _⟩
  | acquire hacquire => exact ⟨_, rfl, rfl, rfl, .unchanged, .acquire hpc hacquire⟩
  | reread => exact ⟨_, rfl, rfl, rfl, .read, keep_reread hpc _⟩
  | rereadFault => exact ⟨_, rfl, rfl, rfl, .unchanged, keep_reread hpc _⟩
  | secondCheck => exact ⟨_, rfl, rfl, rfl, .unchanged, keep_secondCheck hpc⟩
  | refresh =>
      refine ⟨_, rfl, rfl, rfl, .unchanged, .keep ?_ ?_ ?_⟩
      · simp [hpc, Pc.holder]
      · simp
      · simp [hpc, Pc.refreshing, Pc.inside]
  | answer => exact ⟨_, rfl, rfl, rfl, .unchanged, keep_answer hpc _⟩
  | answerCheck => exact ⟨_, rfl, rfl, rfl, .unchanged, keep_answerCheck hpc⟩
  | expiry | expiryFault => exact ⟨_, rfl, rfl, rfl, .unchanged, keep_expiry hpc _⟩
  | noSessions =>
      refine ⟨_, rfl, rfl, rfl, .unchanged, .keep ?_ ?_ ?_⟩
      · simp [hpc, Pc.holder]
      · simp
      · simp [hpc, Pc.refreshing, Pc.inside]
  | persist => exact ⟨_, rfl, rfl, rfl, .put hpc, keep_persist hpc _⟩
  | persistFault => exact ⟨_, rfl, rfl, rfl, .unchanged, keep_persist hpc _⟩
  | dropTokens => exact ⟨_, rfl, rfl, rfl, .delete, keep_dropTokens hpc⟩
  | dropTokensFault => exact ⟨_, rfl, rfl, rfl, .unchanged, keep_dropTokens hpc⟩
  | dropSession | dropSessionFault =>
      exact ⟨_, rfl, rfl, rfl, .unchanged, keep_dropSession hpc⟩
  | release hrelease => exact ⟨_, rfl, rfl, rfl, .unchanged, .release hpc hrelease⟩
  | abandon => exact ⟨_, rfl, rfl, rfl, .unchanged, .abandon hpc⟩

/-- **What a step of the logout can do**: it goes on, reads or deletes the token set, deletes
the session, or returns an error. -/
inductive LogoutEffect (c : Setting) (w : World T S L) : World T S L → Prop where
  | skip
      (hsid : c.sid = "") :
      LogoutEffect c w { w with logout := .returned (.ok c.request.logoutReturn) }
  | start :
      LogoutEffect c w { w with logout := .loadTokens }
  | load :
      LogoutEffect c w
        { w with
          tokens := (T.get w.tokens w.now c.sid).1
          logout := afterLoad (T.get w.tokens w.now c.sid).2 }
  | loadFault {e : Err} :
      LogoutEffect c w { w with logout := afterLoad (.error e) }
  | deleteTokens {idToken : String} :
      LogoutEffect c w
        { w with
          tokens := T.delete w.tokens c.sid
          logout := .deleteSession idToken }
  | deleteSession {idToken : String}
      (hpc : w.logout = .deleteSession idToken) :
      LogoutEffect c w
        { w with
          sessions := S.delete w.sessions c.sid
          logout := afterSessionDeleted c.request idToken }
  | endSession {idToken : String} {result : Except Err String}
      (hpc : w.logout = .endSession idToken) :
      LogoutEffect c w { w with logout := .returned result }
  | fail {e : Err} :
      LogoutEffect c w { w with logout := .returned (.error e) }

theorem logoutStep_effect
    (h : logoutStep c w o = some w') :
    LogoutEffect c w w' := by
  unfold logoutStep at h
  cases hpc : w.logout with
  | notCalled =>
      cases o <;> simp [hpc] at h
      split_ifs at h with hsid
      · cases h
        exact .skip hsid
      · cases h
        exact .start
  | loadTokens =>
      simp only [hpc, Option.map_eq_some_iff] at h
      obtain ⟨r, hr, rfl⟩ := h
      rcases apply_cases hr with ⟨-, rfl⟩ | ⟨e, -, rfl⟩
      · exact .load
      · exact .loadFault
  | deleteTokens idToken =>
      cases o <;> simp [hpc] at h <;> subst h
      · exact .deleteTokens
      · exact .fail
  | deleteSession idToken =>
      cases o <;> simp [hpc] at h <;> subst h
      · exact .deleteSession hpc
      · exact .fail
  | endSession idToken =>
      cases o <;> simp [hpc] at h
      subst h
      exact .endSession hpc
  | returned result =>
      simp [hpc] at h

/-- A step of the logout moves no call and takes no time. -/
structure LogoutMoved (w w' : World T S L) : Prop where
  calls : w'.calls = w.calls
  now : w'.now = w.now
  lock : w'.lock = w.lock
  presented : w'.presented = w.presented

theorem logoutStep_moved
    (h : logoutStep c w o = some w') :
    LogoutMoved w w' := by
  cases logoutStep_effect h <;> exact ⟨rfl, rfl, rfl, rfl⟩

/-- A call is made once. -/
theorem spawn_success
    (h : step c w (.spawn i) = some w') :
    w.calls i = .idle ∧ w' = w.goto i (entry c) := by
  cases hpc : w.calls i <;> simp only [step, hpc, reduceCtorEq] at h
  cases h
  exact ⟨rfl, rfl⟩

theorem tick_success
    {t : Int} (h : step c w (.tick t) = some w') :
    w.now ≤ t ∧ w' = { w with now := t } := by
  simp only [step] at h
  split_ifs at h with hle
  cases h
  exact ⟨hle, rfl⟩

theorem expireLock_success
    (h : step c w .expireLock = some w') :
    ∃ lock, L.expire w.lock w.now c.key = some lock ∧ w' = { w with lock := lock } := by
  simp only [step, Option.map_eq_some_iff] at h
  obtain ⟨lock, hexpire, rfl⟩ := h
  exact ⟨lock, hexpire, rfl⟩

/-- A call that is not made stays idle. -/
theorem idle_of_step
    {e : Event}
    (hspawn : e ≠ .spawn i)
    (hidle : w.calls i = .idle)
    (h : step c w e = some w') :
    w'.calls i = .idle := by
  cases e with
  | spawn j =>
      obtain ⟨-, rfl⟩ := spawn_success h
      have hij : i ≠ j := by
        rintro rfl
        exact hspawn rfl
      rw [goto_calls_of_ne _ _ hij]
      exact hidle
  | call j o =>
      obtain ⟨pc, hmoved⟩ := callStep_moved h
      have hij : i ≠ j := by
        rintro rfl
        simp [step, callStep, hidle] at h
      rw [hmoved.calls, Function.update_of_ne hij]
      exact hidle
  | logout o =>
      rw [(logoutStep_moved h).calls]
      exact hidle
  | tick t =>
      obtain ⟨-, rfl⟩ := tick_success h
      exact hidle
  | expireLock =>
      obtain ⟨lock, -, rfl⟩ := expireLock_success h
      exact hidle

theorem idle_of_run
    {es : List Event}
    (hspawn : Event.spawn i ∉ es)
    (hidle : w.calls i = .idle)
    (hrun : Run.exec (step c) w es = some w') :
    w'.calls i = .idle := by
  induction es generalizing w with
  | nil =>
      cases hrun
      exact hidle
  | cons e es ih =>
      simp only [List.mem_cons, not_or] at hspawn
      obtain ⟨w₁, hstep, hrest⟩ := Run.exec_cons_success hrun
      exact ih hspawn.2 (idle_of_step (Ne.symm hspawn.1) hidle hstep) hrest

/-- Every call has returned or was never made. -/
def Finished (w : World T S L) : Prop :=
  ∀ i, w.calls i = .idle ∨ ∃ result, w.calls i = .done result

/-- A run after which every call that was made has returned. -/
theorem finished_of_run
    {es : List Event}
    (hidle : ∀ i, w.calls i = .idle)
    (hrun : Run.exec (step c) w es = some w')
    (hdone : ∀ i, Event.spawn i ∈ es → ∃ result, w'.calls i = .done result) :
    Finished w' := by
  intro i
  by_cases hi : Event.spawn i ∈ es
  · exact Or.inr (hdone i hi)
  · exact Or.inl (idle_of_run hi (hidle i) hrun)

/-- The clock does not run backwards. -/
theorem now_le_of_step
    {e : Event} (h : step c w e = some w') :
    w.now ≤ w'.now := by
  cases e with
  | spawn j =>
      obtain ⟨-, rfl⟩ := spawn_success h
      exact le_refl _
  | call j o =>
      obtain ⟨pc, hmoved⟩ := callStep_moved h
      exact le_of_eq hmoved.now.symm
  | logout o =>
      exact le_of_eq (logoutStep_moved h).now.symm
  | tick t =>
      obtain ⟨hle, rfl⟩ := tick_success h
      exact hle
  | expireLock =>
      obtain ⟨lock, -, rfl⟩ := expireLock_success h
      exact le_refl _

theorem now_le_of_run
    {es : List Event} (hrun : Run.exec (step c) w es = some w') :
    w.now ≤ w'.now := by
  induction es generalizing w with
  | nil =>
      cases hrun
      exact le_refl _
  | cons e es ih =>
      obtain ⟨w₁, hstep, hrest⟩ := Run.exec_cons_success hrun
      exact le_trans (now_le_of_step hstep) (ih hrest)

end Moves

section Sample

/-- A manager with all its collaborators and the default settings. -/
def sampleSetting : Setting where
  manager := ⟨true, true, true, true, 0, 0⟩
  sid := "sid"
  request := ⟨false, "/"⟩

/-- A clock reading, ten seconds before the stored access token expires. -/
def sampleNow : Int :=
  62135597790000000000

def storedSet : TokenSet :=
  ⟨"access-0", "refresh-0", "id-0", 1000⟩

def answeredSet : TokenSet :=
  ⟨"access-1", "refresh-1", "", 5000⟩

/-- A session that outlives the run. -/
def sampleSession : Session :=
  ⟨"sid", "u1", "iss", "u", "U", "u@example.org", [], sampleNow, sampleNow + 3600000000000,
    sampleNow⟩

/-- Nothing has been called yet. -/
def idleWorld {T : Store} {S : Session.Store} {L : Locker}
    (tokens : T.State) (sessions : S.State) (lock : L.State) : World T S L where
  now := sampleNow
  tokens := tokens
  sessions := sessions
  lock := lock
  calls _ := .idle
  logout := .notCalled
  presented := []

/-- The memory stores and the memory lock, with a session and a token set. -/
def memoryWorld : World memoryStore Session.memoryStore memoryLocker :=
  idleWorld (T := memoryStore) (S := Session.memoryStore) (L := memoryLocker)
    (MemoryState.put Table.empty "sid" storedSet sampleSession.expiresAt)
    (Session.MemoryState.empty.put sampleSession) MemoryLocks.empty

/-- Call `i` up to the start of its `RefreshTokens`. -/
def refreshStarts (i : Nat) : List Event :=
  [.spawn i, .call i .ok, .call i .ok, .call i .ok, .call i .ok, .call i .ok, .call i .ok,
    .call i .ok]

/-- The answer of the identity provider to call `i`, up to the session's expiry. -/
def refreshAnswered (i : Nat) : List Event :=
  [.call i (.answer (.ok answeredSet)), .call i .ok, .call i .ok]

/-- The rest of call `i`: write the set and unlock. -/
def refreshEnds (i : Nat) : List Event :=
  [.call i .ok, .call i .ok]

/-- The four steps of a logout that succeeds. -/
def logoutSteps : List Event :=
  [.logout .ok, .logout .ok, .logout .ok, .logout .ok]

end Sample

end Token
end GatewayRuntime
