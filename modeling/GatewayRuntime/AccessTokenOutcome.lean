import GatewayRuntime.AccessToken
import GatewayRuntime.StoreEntries

/-!
# The outcomes of an access-token call

`StoreManager.AccessToken` as one call that nothing interrupts, at one time, with
stores that do not fail.  `accessToken_runs` says that the steps of `AccessToken`
compute this function.

A call ends in exactly one of four ways (`accessToken_outcome`): it returns the stored
access token, it has nothing to refresh, it fails closed, or it returns the new access
token of the identity provider.
-/

namespace GatewayRuntime
namespace Token

section Model

variable (T : Store) (S : Session.Store) (m : Manager) (answer : Except Err TokenSet)
  (now : Int) (sid : String)

variable {T S}

/-- `StoreManager.invalidate`, and the error that is returned after it. -/
def invalidate (tokens : T.State) (sessions : S.State) (err : Err) :
    (T.State × S.State) × Except Err String :=
  ((T.delete tokens sid, if m.hasSessions then S.delete sessions sid else sessions), .error err)

/-- `StoreManager.sessionExpiry`. -/
def sessionExpiry (sessions : S.State) : S.State × Except Err Int :=
  if m.hasSessions then
    match S.get sessions now sid with
    | (sessions, .error e) => (sessions, .error e)
    | (sessions, .ok v) => (sessions, .ok v.expiresAt)
  else (sessions, .error (.text "session store is required for token refresh"))

/-- The last `Store.Put` of `AccessToken`. -/
def persist (fresh : TokenSet) (expiresAt : Int) (tokens : T.State) (sessions : S.State) :
    (T.State × S.State) × Except Err String :=
  match T.put tokens now sid fresh expiresAt with
  | (tokens, .error e) => ((tokens, sessions), .error (.wrap "persist refreshed token: " "" e))
  | (tokens, .ok ()) => ((tokens, sessions), .ok fresh.accessToken)

/-- The end of `AccessToken`: the refreshed set is written with the session's expiry. -/
def storeRefreshed (fresh : TokenSet) (tokens : T.State) (sessions : S.State) :
    (T.State × S.State) × Except Err String :=
  match sessionExpiry m now sid sessions with
  | (sessions, .error e) => invalidate m sid tokens sessions e
  | (sessions, .ok expiresAt) => persist now sid fresh expiresAt tokens sessions

/-- `AccessToken` from `RefreshTokens` on, with the set that was read last. -/
def renew (cur : TokenSet) (tokens : T.State) (sessions : S.State) :
    (T.State × S.State) × Except Err String :=
  match answer with
  | .error e =>
      invalidate m sid tokens sessions (.wrap "" (": " ++ Err.message e) (.leaf .refreshFailed))
  | .ok answer =>
      if answer.accessToken = "" ∨ answer.expiryUnix.toInt ≤ GoTime.unixSeconds now then
        invalidate m sid tokens sessions
          (.wrap "" ": invalid refreshed token set" (.leaf .refreshFailed))
      else storeRefreshed m now sid (merge cur answer) tokens sessions

/-- `AccessToken` behind the lock. -/
def refreshLocked (tokens : T.State) (sessions : S.State) :
    (T.State × S.State) × Except Err String :=
  match T.get tokens now sid with
  | (tokens, .error e) => ((tokens, sessions), .error e)
  | (tokens, .ok cur) =>
      if m.needsRefresh now cur = false then ((tokens, sessions), .ok cur.accessToken)
      else if cur.refreshToken = "" then
        ((tokens, sessions), .error (.leaf .refreshUnavailable))
      else renew m answer now sid cur tokens sessions

/-- `AccessToken` after the first `Store.Get`; the lock, if there is one, is granted. -/
def useStored (cur : TokenSet) (tokens : T.State) (sessions : S.State) :
    (T.State × S.State) × Except Err String :=
  if cur.accessToken = "" then ((tokens, sessions), .error (.text "access token missing"))
  else if m.needsRefresh now cur = false then ((tokens, sessions), .ok cur.accessToken)
  else if cur.refreshToken = "" ∨ m.hasRefresher = false then
    ((tokens, sessions), .error (.leaf .refreshUnavailable))
  else refreshLocked m answer now sid tokens sessions

/-- `StoreManager.AccessToken`. -/
def accessToken (tokens : T.State) (sessions : S.State) :
    (T.State × S.State) × Except Err String :=
  if m.hasStore = false then
    ((tokens, sessions), .error (.text "token store is not configured"))
  else
    match T.get tokens now sid with
    | (tokens, .error e) => ((tokens, sessions), .error e)
    | (tokens, .ok cur) => useStored m answer now sid cur tokens sessions

end Model

section Steps

variable {T : Store} {S : Session.Store} {L : Locker} {c : Setting} {w w' : World T S L}
  {i : Nat} {tokens : T.State} {sessions : S.State} {result : Except Err String}

/-- From `w` some run lets call `i` return what `out` says, with its stores. -/
def Completes (c : Setting) (w : World T S L) (i : Nat)
    (out : (T.State × S.State) × Except Err String) : Prop :=
  Run.Reaches (step c) w fun w' =>
    w'.tokens = out.1.1 ∧ w'.sessions = out.1.2 ∧ w'.calls i = .done out.2

/-- A call that leaves returns, with or without a lock. -/
theorem completes_leave
    {h : Option Nat}
    (hcall : w.calls i = leave h result) :
    Completes c w i ((w.tokens, w.sessions), result) := by
  cases h with
  | none => exact Run.Reaches.here ⟨rfl, rfl, hcall⟩
  | some h =>
      -- the error of the deferred unlock is dropped
      refine Run.Reaches.after (e := .call i (.fault (.text "")))
        (by simp [step, callStep, hcall, leave]; rfl) ?_
      exact Run.Reaches.here ⟨rfl, rfl, goto_calls_self w i _⟩

/-- The two deletions of `invalidate`. -/
theorem completes_dropTokens
    {h : Option Nat} {err : Err}
    (hcall : w.calls i = .dropTokens h err) :
    Completes c w i (invalidate c.manager c.sid w.tokens w.sessions err) := by
  refine Run.Reaches.after (e := .call i .ok)
    (by simp [step, callStep, hcall, Outcome.applySilently]; rfl) ?_
  unfold invalidate afterDropTokens
  cases c.manager.hasSessions with
  | false => exact completes_leave (goto_calls_self _ i _)
  | true =>
      refine Run.Reaches.after (e := .call i .ok)
        (by simp [step, callStep, Outcome.applySilently]; rfl) ?_
      exact completes_leave (goto_calls_self _ i _)

theorem completes_persist
    {h : Option Nat} {fresh : TokenSet} {expiresAt : Int}
    (hcall : w.calls i = .persist h fresh expiresAt) :
    Completes c w i (persist w.now c.sid fresh expiresAt w.tokens w.sessions) := by
  unfold persist
  refine Run.Reaches.after (e := .call i .ok)
    (by simp [step, callStep, hcall, Outcome.apply]; rfl) ?_
  rcases T.put w.tokens w.now c.sid fresh expiresAt with ⟨tokens', e | u⟩
  · exact completes_leave (goto_calls_self _ i _)
  · exact completes_leave (goto_calls_self _ i _)

theorem completes_expiry
    {h : Option Nat} {fresh : TokenSet}
    (hcall : w.calls i = .expiry h fresh) :
    Completes c w i (storeRefreshed c.manager w.now c.sid fresh w.tokens w.sessions) := by
  cases hsessions : c.manager.hasSessions with
  | false =>
      simp only [storeRefreshed, sessionExpiry, hsessions, Bool.false_eq_true, if_false]
      refine Run.Reaches.after (e := .call i .ok)
        (by simp [step, callStep, hcall, hsessions]; rfl) ?_
      exact completes_dropTokens (goto_calls_self _ i _)
  | true =>
      simp only [storeRefreshed, sessionExpiry, hsessions, if_true]
      refine Run.Reaches.after (e := .call i .ok)
        (by simp [step, callStep, hcall, hsessions, Outcome.apply]; rfl) ?_
      rcases S.get w.sessions w.now c.sid with ⟨sessions', e | v⟩
      · exact completes_dropTokens (goto_calls_self _ i _)
      · exact completes_persist (goto_calls_self _ i _)

/-- From `RefreshTokens` on. -/
theorem completes_renew
    {h : Option Nat} {cur : TokenSet} (answer : Except Err TokenSet)
    (hcall : w.calls i = .refresh h cur) :
    Completes c w i (renew c.manager answer w.now c.sid cur w.tokens w.sessions) := by
  refine Run.Reaches.after (e := .call i .ok) (by simp [step, callStep, hcall]; rfl) ?_
  refine Run.Reaches.after (e := .call i (.answer answer)) (by simp [step, callStep]; rfl) ?_
  unfold renew
  cases answer with
  | error e => exact completes_dropTokens (goto_calls_self _ i _)
  | ok answer =>
      refine Run.Reaches.after (e := .call i .ok)
        (by simp [step, callStep, afterRefresh]; rfl) ?_
      dsimp only
      by_cases hbad : answer.accessToken = "" ∨
          answer.expiryUnix.toInt ≤ GoTime.unixSeconds w.now
      · rw [if_pos hbad]
        exact completes_dropTokens ((goto_calls_self _ i _).trans (if_pos hbad))
      · rw [if_neg hbad]
        exact completes_expiry ((goto_calls_self _ i _).trans (if_neg hbad))

theorem completes_checkSecond
    {h : Option Nat} {cur : TokenSet} (answer : Except Err TokenSet)
    (hcall : w.calls i = .checkSecond h cur) :
    Completes c w i
      (if c.manager.needsRefresh w.now cur = false then
        ((w.tokens, w.sessions), .ok cur.accessToken)
      else if cur.refreshToken = "" then
        ((w.tokens, w.sessions), .error (.leaf .refreshUnavailable))
      else renew c.manager answer w.now c.sid cur w.tokens w.sessions) := by
  refine Run.Reaches.after (e := .call i .ok) (by simp [step, callStep, hcall]; rfl) ?_
  by_cases hfresh : c.manager.needsRefresh w.now cur = false
  · rw [if_pos hfresh]
    exact completes_leave ((goto_calls_self _ i _).trans (if_pos hfresh))
  rw [if_neg hfresh]
  by_cases hnone : cur.refreshToken = ""
  · rw [if_pos hnone]
    exact completes_leave ((goto_calls_self _ i _).trans ((if_neg hfresh).trans (if_pos hnone)))
  · rw [if_neg hnone]
    exact completes_renew answer
      ((goto_calls_self _ i _).trans ((if_neg hfresh).trans (if_neg hnone)))

theorem completes_reread
    {h : Option Nat} (answer : Except Err TokenSet)
    (hcall : w.calls i = .reread h) :
    Completes c w i (refreshLocked c.manager answer w.now c.sid w.tokens w.sessions) := by
  unfold refreshLocked
  refine Run.Reaches.after (e := .call i .ok)
    (by simp [step, callStep, hcall, Outcome.apply]; rfl) ?_
  rcases T.get w.tokens w.now c.sid with ⟨tokens', e | cur⟩
  · exact completes_leave (goto_calls_self _ i _)
  · exact completes_checkSecond answer (goto_calls_self _ i _)

/-- The lock, if there is one, is granted to call `i` at once. -/
def LockFree (c : Setting) (w : World T S L) (i : Nat) : Prop :=
  c.manager.hasLocker = true →
    (L.acquire (L.enter w.lock c.key i).1 w.now c.manager.effectiveLockTTL c.key
      (L.enter w.lock c.key i).2).isSome = true

theorem completes_awaitLock
    (answer : Except Err TokenSet) {h : Nat} {lock : L.State}
    (hacquire : L.acquire w.lock w.now c.manager.effectiveLockTTL c.key h = some lock)
    (hcall : w.calls i = .awaitLock h) :
    Completes c w i (refreshLocked c.manager answer w.now c.sid w.tokens w.sessions) := by
  refine Run.Reaches.after (e := .call i .ok) (by simp [step, callStep, hcall, hacquire]; rfl) ?_
  exact completes_reread answer (goto_calls_self _ i _)

theorem completes_enterLock
    (answer : Except Err TokenSet)
    (hlock : LockFree c w i) (hlocker : c.manager.hasLocker = true)
    (hcall : w.calls i = .enterLock) :
    Completes c w i (refreshLocked c.manager answer w.now c.sid w.tokens w.sessions) := by
  obtain ⟨lock, hacquire⟩ := Option.isSome_iff_exists.mp (hlock hlocker)
  refine Run.Reaches.after (e := .call i .ok) (by simp [step, callStep, hcall]; rfl) ?_
  exact completes_awaitLock answer hacquire (goto_calls_self _ i _)

theorem completes_checkFirst
    {cur : TokenSet} (answer : Except Err TokenSet)
    (hlock : LockFree c w i)
    (hcall : w.calls i = .checkFirst cur) :
    Completes c w i (useStored c.manager answer w.now c.sid cur w.tokens w.sessions) := by
  unfold useStored
  refine Run.Reaches.after (e := .call i .ok) (by simp [step, callStep, hcall]; rfl) ?_
  by_cases haccess : cur.accessToken = ""
  · rw [if_pos haccess]
    exact Run.Reaches.here ⟨rfl, rfl, (goto_calls_self _ i _).trans (if_pos haccess)⟩
  rw [if_neg haccess]
  by_cases hfresh : c.manager.needsRefresh w.now cur = false
  · rw [if_pos hfresh]
    exact Run.Reaches.here
      ⟨rfl, rfl, (goto_calls_self _ i _).trans ((if_neg haccess).trans (if_pos hfresh))⟩
  rw [if_neg hfresh]
  by_cases hnone : cur.refreshToken = "" ∨ c.manager.hasRefresher = false
  · rw [if_pos hnone]
    exact Run.Reaches.here ⟨rfl, rfl, (goto_calls_self _ i _).trans
      ((if_neg haccess).trans ((if_neg hfresh).trans (if_pos hnone)))⟩
  rw [if_neg hnone]
  have hgoto : afterFirstCheck c.manager w.now cur =
      if c.manager.hasLocker then .enterLock else .reread none :=
    (if_neg haccess).trans ((if_neg hfresh).trans (if_neg hnone))
  rw [hgoto]
  cases hlocker : c.manager.hasLocker with
  | false => exact completes_reread answer (goto_calls_self _ i _)
  | true => exact completes_enterLock answer hlock hlocker (goto_calls_self _ i _)

theorem completes_start
    (answer : Except Err TokenSet)
    (hlock : LockFree c w i)
    (hcall : w.calls i = .start) :
    Completes c w i
      (match T.get w.tokens w.now c.sid with
      | (tokens, .error e) => ((tokens, w.sessions), .error e)
      | (tokens, .ok cur) => useStored c.manager answer w.now c.sid cur tokens w.sessions) := by
  refine Run.Reaches.after (e := .call i .ok)
    (by simp [step, callStep, hcall, Outcome.apply]; rfl) ?_
  rcases T.get w.tokens w.now c.sid with ⟨tokens', e | cur⟩
  · exact Run.Reaches.here ⟨rfl, rfl, goto_calls_self _ i _⟩
  · exact completes_checkFirst answer hlock (goto_calls_self _ i _)

/-- The steps of a call that nothing interrupts compute `accessToken`. -/
theorem accessToken_runs
    (c : Setting) (w : World T S L) (i : Nat) (answer : Except Err TokenSet)
    (hidle : w.calls i = .idle)
    (hlock : LockFree c w i) :
    Completes c w i (accessToken c.manager answer w.now c.sid w.tokens w.sessions) := by
  refine Run.Reaches.after (e := .spawn i) (by simp [step, hidle]; rfl) ?_
  unfold accessToken entry
  cases c.manager.hasStore with
  | false => exact Run.Reaches.here ⟨rfl, rfl, goto_calls_self _ i _⟩
  | true => exact completes_start answer hlock (goto_calls_self _ i _)

end Steps

section Law

/-- The ways in which a call ends. -/
inductive Ending where
  | stored
  | unavailable
  | closed
  | refreshed
deriving DecidableEq

/-- The access token is outside the refresh window, or its expiry is not known. -/
def Manager.OutsideWindow (m : Manager) (now : Int) (x : TokenSet) : Prop :=
  x.expiryUnix ≤ 0 ∨ GoTime.add now m.before < GoTime.unix x.expiryUnix

theorem Manager.needsRefresh_eq_false_iff (m : Manager) (now : Int) (x : TokenSet) :
    m.needsRefresh now x = false ↔ m.OutsideWindow now x := by
  unfold needsRefresh OutsideWindow
  by_cases h : x.expiryUnix ≤ 0
  · simp [h]
  · simp [h]

/-- The call goes to the identity provider with this set. -/
structure Manager.Refreshable (m : Manager) (now : Int) (x : TokenSet) : Prop where
  access : x.accessToken ≠ ""
  window : ¬m.OutsideWindow now x
  refresh : x.refreshToken ≠ ""

variable (T : EntryStore) (S : Session.EntryStore) (m : Manager) (answer : Except Err TokenSet)
  (now : Int) (sid : String) (tokens : T.State) (sessions : S.State)

/-- What each ending says about the stores before and after the call and about its result. -/
def Ends (out : (T.State × S.State) × Except Err String) : Ending → Prop
  | .stored =>
      ∃ cur, T.value tokens now sid = some cur ∧ cur.accessToken ≠ "" ∧
        m.OutsideWindow now cur ∧ out = ((tokens, sessions), .ok cur.accessToken)
  | .unavailable =>
      (∀ cur, T.value tokens now sid = some cur →
        cur.accessToken = "" ∨ ¬m.OutsideWindow now cur ∧ cur.refreshToken = "") ∧
      (out.1.1 = tokens ∨ T.value tokens now sid = none ∧ out.1.1 = T.delete tokens sid) ∧
      out.1.2 = sessions ∧ ∃ e, out.2 = .error e
  | .closed =>
      (∃ cur, T.value tokens now sid = some cur ∧ m.Refreshable now cur) ∧
      ((∃ e, answer = .error e) ∨
        (∃ a, answer = .ok a ∧
          (a.accessToken = "" ∨ a.expiryUnix.toInt ≤ GoTime.unixSeconds now)) ∨
        (S.get sessions now sid).2 = .error Session.errNotFound) ∧
      T.stored out.1.1 sid = false ∧ S.stored out.1.2 sid = false ∧ ∃ e, out.2 = .error e
  | .refreshed =>
      ∃ cur a e e' expiresAt,
        T.value tokens now sid = some cur ∧ m.Refreshable now cur ∧
        answer = .ok a ∧ a.accessToken ≠ "" ∧ GoTime.unixSeconds now < a.expiryUnix.toInt ∧
        S.entry sessions sid = some e ∧ (S.session e).expiresAt = expiresAt ∧
        S.entry out.1.2 sid = some e' ∧ (S.session e').expiresAt = expiresAt ∧
        T.entry out.1.1 sid = some (T.writes now expiresAt (merge cur a)) ∧
        out.2 = .ok a.accessToken

/-- The stores do not fail: the session store finds a session or answers that there is
none, and the token store takes a set with the expiry of the session. -/
structure NotFailing : Prop where
  session : ∀ e, (S.get sessions now sid).2 = .error e → e = Session.errNotFound
  put : ∀ v x, (S.get sessions now sid).2 = .ok v →
    (T.put tokens now sid x v.expiresAt).2 = .ok ()

section Healthy

variable {now : Int} {sid : String}

/-- The memory stores do not fail. -/
theorem notFailing_memory
    (front : Option Session.Lifecycle) (tokens : (backendEntries .memory).State)
    (sessions : (Session.deployedEntries .memory front).State) :
    NotFailing (backendEntries .memory) (Session.deployedEntries .memory front) now sid tokens
      sessions := by
  have hget (s : Session.memoryStore.State) (e : Err)
      (h : (Session.memoryStore.get s now sid).2 = .error e) : e = Session.errNotFound := by
    rcases Session.MemoryState.get_eq s now sid with ⟨-, herr, -⟩ | ⟨v, -, hstate⟩
    · exact Except.error.inj (h.symm.trans herr)
    · simp only [Session.memoryStore, hstate] at h
      cases h
  refine ⟨?_, fun _ _ _ => rfl⟩
  intro e h
  cases front with
  | none => exact hget sessions e h
  | some cfg => exact Session.Lifecycle.get_error (hget sessions) (fun _ _ => rfl) h

theorem redis_get_ok
    {s : Session.RedisState} {v : Session} (h : (s.get now sid).2 = .ok v) :
    ∃ e, s.data.find sid = some e ∧ e.value = v ∧ (v.expiresAt = 0 ∨ now < v.expiresAt) := by
  unfold Session.RedisState.get at h
  cases hfind : s.data.find sid with
  | none =>
      rw [hfind] at h
      cases h
  | some e =>
      rw [hfind] at h
      dsimp only at h
      split_ifs at h with hdeadline hexpired
      cases h
      refine ⟨e, rfl, rfl, ?_⟩
      simpa [GoTime.isZero, or_iff_not_imp_left] using hexpired

/-- The session of `sid`, if one is stored, has an expiry, and `encoding/json` writes its
times and that of the call. -/
def Writable (S : Session.EntryStore) (now : Int) (sid : String) (sessions : S.State) : Prop :=
  ∀ e, S.entry sessions sid = some e →
    (S.session e).expiresAt ≠ 0 ∧
      Session.marshalable { S.session e with lastSeen := now } = true

/-- The stores on Redis do not fail on such a session. -/
theorem notFailing_redis
    (front : Option Session.Lifecycle) (tokens : (backendEntries .redis).State)
    (sessions : (Session.deployedEntries .redis front).State)
    (hwritable : Writable (Session.deployedEntries .redis front) now sid sessions) :
    NotFailing (backendEntries .redis) (Session.deployedEntries .redis front) now sid tokens
      sessions := by
  have hget (s : Session.RedisState) (e : Err) (h : (s.get now sid).2 = .error e) :
      e = Session.errNotFound := by
    rcases Session.RedisState.get_eq s now sid with ⟨-, herr, -⟩ | ⟨v, -, hstate⟩
    · exact Except.error.inj (h.symm.trans herr)
    · rw [hstate] at h
      cases h
  have hlive (s : Session.RedisState) (hs : Writable Session.redisEntries now sid s) (v : Session)
      (h : (s.get now sid).2 = .ok v) :
      now < v.expiresAt ∧ Session.marshalable { v with lastSeen := now } = true := by
    obtain ⟨e, hfind, rfl, hnow⟩ := redis_get_ok h
    obtain ⟨hexpires, hjson⟩ := hs e hfind
    exact ⟨hnow.resolve_left hexpires, hjson⟩
  have hput (v : Session) (x : TokenSet) (h : now < v.expiresAt) :
      (RedisState.put tokens now sid x v.expiresAt).2 = .ok () := by
    have hpos := Int64.not_le.mpr (GoTime.sub_pos h)
    simp [RedisState.put, hpos]
  have htouch (s : Session.RedisState) (v : Session)
      (h : now < v.expiresAt ∧ Session.marshalable { v with lastSeen := now } = true) :
      (s.put now { v with lastSeen := now }).2 = .ok () := by
    have hpos := Int64.not_le.mpr (GoTime.sub_pos h.1)
    simp [Session.RedisState.put, h.2, hpos]
  cases front with
  | none =>
      exact ⟨hget sessions, fun v x hv => hput v x (hlive sessions hwritable v hv).1⟩
  | some cfg =>
      refine ⟨fun e => Session.Lifecycle.get_error (hget sessions) ?_, ?_⟩
      · intro v hv
        exact htouch _ v (hlive sessions hwritable v hv)
      · intro v x hv
        obtain ⟨v₀, hv₀, heq, -⟩ := Session.Lifecycle.get_ok hv
        rw [heq]
        exact hput v₀ x (hlive sessions hwritable v₀ hv₀).1

end Healthy

section Ends

variable {T S m answer now sid tokens sessions}

theorem EntryStore.get_of_value
    {x : TokenSet} (h : T.value tokens now sid = some x) :
    T.get tokens now sid = (tokens, .ok x) := by
  apply Prod.ext
  · rcases T.get_state tokens now sid with hsame | ⟨hnone, -⟩
    · exact hsame
    · rw [h] at hnone
      cases hnone
  · rw [T.get_result, h]
    rfl

theorem ends_storeRefreshed
    (hsessions : m.hasSessions = true)
    (hfail : NotFailing T S now sid tokens sessions)
    {cur a : TokenSet}
    (hvalue : T.value tokens now sid = some cur)
    (hcur : m.Refreshable now cur)
    (ha : answer = .ok a)
    (hgood : ¬(a.accessToken = "" ∨ a.expiryUnix.toInt ≤ GoTime.unixSeconds now)) :
    ∃ k, Ends T S m answer now sid tokens sessions
      (storeRefreshed m now sid (merge cur a) tokens sessions) k := by
  push Not at hgood
  unfold storeRefreshed sessionExpiry
  rw [if_pos hsessions]
  rcases hget : S.get sessions now sid with ⟨sessions', e | v⟩
  · have hgone : (S.get sessions now sid).2 = .error e := by rw [hget]
    have herr := hfail.session e hgone
    subst herr
    refine ⟨.closed, ⟨cur, hvalue, hcur⟩, Or.inr (Or.inr hgone), T.not_stored_delete, ?_, _, rfl⟩
    simp only [invalidate, hsessions, if_true]
    exact S.not_stored_delete
  · have hfound : (S.get sessions now sid).2 = .ok v := by rw [hget]
    have hput := hfail.put v (merge cur a) hfound
    obtain ⟨e, e', hentry, hentry', hexpires, hexpires'⟩ := S.get_ok hfound
    rw [hget] at hentry'
    have hwritten := T.entry_put_ok hput
    simp only [persist]
    rcases hstate : T.put tokens now sid (merge cur a) v.expiresAt with ⟨tokens', e'' | u⟩
    · rw [hstate] at hput
      cases hput
    · rw [hstate] at hwritten
      refine ⟨.refreshed, cur, a, e, e', v.expiresAt, hvalue, hcur, ha, hgood.1, hgood.2, hentry,
        hexpires, hentry', hexpires', ?_, rfl⟩
      rw [hwritten, Function.update_self]

theorem ends_renew
    (hsessions : m.hasSessions = true)
    (hfail : NotFailing T S now sid tokens sessions)
    {cur : TokenSet}
    (hvalue : T.value tokens now sid = some cur)
    (hcur : m.Refreshable now cur) :
    ∃ k, Ends T S m answer now sid tokens sessions
      (renew m answer now sid cur tokens sessions) k := by
  have hclosed (err : Err)
      (hcause : (∃ e, answer = .error e) ∨ ∃ a, answer = .ok a ∧
        (a.accessToken = "" ∨ a.expiryUnix.toInt ≤ GoTime.unixSeconds now)) :
      Ends T S m answer now sid tokens sessions
        (invalidate m sid tokens sessions err) .closed := by
    refine ⟨⟨cur, hvalue, hcur⟩, hcause.imp_right Or.inl, T.not_stored_delete, ?_, _, rfl⟩
    simp only [invalidate, hsessions, if_true]
    exact S.not_stored_delete
  unfold renew
  cases answer with
  | error e => exact ⟨.closed, hclosed _ (Or.inl ⟨e, rfl⟩)⟩
  | ok a =>
      dsimp only
      by_cases hbad : a.accessToken = "" ∨ a.expiryUnix.toInt ≤ GoTime.unixSeconds now
      · rw [if_pos hbad]
        exact ⟨.closed, hclosed _ (Or.inr ⟨a, rfl, hbad⟩)⟩
      · rw [if_neg hbad]
        exact ends_storeRefreshed hsessions hfail hvalue hcur rfl hbad

variable (answer) in
/-- Every call ends in one of the ways. -/
theorem exists_ends
    (hstore : m.hasStore = true)
    (hrefresher : m.hasRefresher = true)
    (hsessions : m.hasSessions = true)
    (hfail : NotFailing T S now sid tokens sessions) :
    ∃ k, Ends T S m answer now sid tokens sessions
      (accessToken m answer now sid tokens sessions) k := by
  unfold accessToken
  simp only [hstore, Bool.true_eq_false, if_false]
  cases hvalue : T.value tokens now sid with
  | none =>
      have hget := T.get_result tokens now sid
      have hstate := T.get_state tokens now sid
      rw [hvalue] at hget
      rcases hread : T.get tokens now sid with ⟨tokens', r⟩
      rw [hread] at hget hstate
      cases hget
      refine ⟨.unavailable, ?_, hstate, rfl, _, rfl⟩
      intro cur hcur
      rw [hvalue] at hcur
      cases hcur
  | some cur =>
      rw [EntryStore.get_of_value hvalue]
      have hunavailable (err : Err)
          (hcur : cur.accessToken = "" ∨ ¬m.OutsideWindow now cur ∧ cur.refreshToken = "") :
          Ends T S m answer now sid tokens sessions ((tokens, sessions), .error err)
            .unavailable := by
        refine ⟨?_, Or.inl rfl, rfl, err, rfl⟩
        intro cur' hcur'
        rw [hvalue] at hcur'
        cases hcur'
        exact hcur
      simp only [useStored, hrefresher, Bool.true_eq_false, or_false]
      by_cases haccess : cur.accessToken = ""
      · rw [if_pos haccess]
        exact ⟨.unavailable, hunavailable _ (Or.inl haccess)⟩
      rw [if_neg haccess]
      by_cases hfresh : m.needsRefresh now cur = false
      · rw [if_pos hfresh]
        exact ⟨.stored, cur, hvalue, haccess, (m.needsRefresh_eq_false_iff now cur).mp hfresh, rfl⟩
      have hwindow : ¬m.OutsideWindow now cur :=
        mt (m.needsRefresh_eq_false_iff now cur).mpr hfresh
      rw [if_neg hfresh]
      by_cases hrefresh : cur.refreshToken = ""
      · rw [if_pos hrefresh]
        exact ⟨.unavailable, hunavailable _ (Or.inr ⟨hwindow, hrefresh⟩)⟩
      rw [if_neg hrefresh]
      -- the second read finds what the first has found
      simp only [refreshLocked, EntryStore.get_of_value hvalue, if_neg hfresh, if_neg hrefresh]
      exact ends_renew hsessions hfail hvalue ⟨haccess, hwindow, hrefresh⟩

/-- The ending, read off the set that is found and the result. -/
def Manager.ending (m : Manager) (now : Int) (result : Except Err String) :
    Option TokenSet → Ending
  | none => .unavailable
  | some cur =>
      if cur.accessToken = "" then .unavailable
      else if m.needsRefresh now cur = false then .stored
      else if cur.refreshToken = "" then .unavailable
      else
        match result with
        | .ok _ => .refreshed
        | .error _ => .closed

theorem Manager.Refreshable.ending_eq
    {x : TokenSet} (h : m.Refreshable now x) (result : Except Err String) :
    m.ending now result (some x) =
      match result with
      | .ok _ => .refreshed
      | .error _ => .closed := by
  have hfresh : ¬m.needsRefresh now x = false :=
    mt (m.needsRefresh_eq_false_iff now x).mp h.window
  simp only [ending, if_neg h.access, if_neg hfresh, if_neg h.refresh]

theorem Ends.eq_ending
    {out : (T.State × S.State) × Except Err String} {k : Ending}
    (h : Ends T S m answer now sid tokens sessions out k) :
    k = m.ending now out.2 (T.value tokens now sid) := by
  cases k with
  | stored =>
      obtain ⟨cur, hvalue, haccess, hwindow, -⟩ := h
      have hfresh := (m.needsRefresh_eq_false_iff now cur).mpr hwindow
      simp only [hvalue, Manager.ending, if_neg haccess, if_pos hfresh]
  | unavailable =>
      cases hvalue : T.value tokens now sid with
      | none => rfl
      | some cur =>
          rcases h.1 cur hvalue with haccess | ⟨hwindow, hrefresh⟩
          · simp only [Manager.ending, if_pos haccess]
          · have hfresh : ¬m.needsRefresh now cur = false :=
              mt (m.needsRefresh_eq_false_iff now cur).mp hwindow
            simp only [Manager.ending, if_neg hfresh, if_pos hrefresh, ite_self]
  | closed =>
      obtain ⟨⟨cur, hvalue, hcur⟩, -, -, -, e, hresult⟩ := h
      rw [hvalue, hcur.ending_eq, hresult]
  | refreshed =>
      obtain ⟨cur, a, -, -, -, hvalue, hcur, -, -, -, -, -, -, -, -, hresult⟩ := h
      rw [hvalue, hcur.ending_eq, hresult]

end Ends

section Frame

variable {T S m answer now sid tokens sessions}

/-- The entries of session `k` are the same. -/
def SameAt (T : EntryStore) (S : Session.EntryStore) (k : String)
    (before after : T.State × S.State) : Prop :=
  T.entry after.1 k = T.entry before.1 k ∧ S.entry after.2 k = S.entry before.2 k

variable {k : String} {before : T.State × S.State}

theorem EntryStore.get_other
    (hk : k ≠ sid) (tokens : T.State) (now : Int) :
    T.entry (T.get tokens now sid).1 k = T.entry tokens k := by
  rcases T.get_state tokens now sid with hsame | ⟨-, hdelete⟩
  · rw [hsame]
  · rw [hdelete, T.entry_delete, Function.update_of_ne hk]

theorem EntryStore.put_other
    (hk : k ≠ sid) (tokens : T.State) (now : Int) (x : TokenSet) (expiresAt : Int) :
    T.entry (T.put tokens now sid x expiresAt).1 k = T.entry tokens k := by
  cases hput : (T.put tokens now sid x expiresAt).2 with
  | error e => rw [T.put_error hput]
  | ok u => rw [T.entry_put_ok hput, Function.update_of_ne hk]

theorem sameAt_invalidate
    (hk : k ≠ sid) (err : Err)
    (h : SameAt T S k before (tokens, sessions)) :
    SameAt T S k before (invalidate m sid tokens sessions err).1 := by
  refine ⟨?_, ?_⟩
  · rw [← h.1]
    simp only [invalidate, T.entry_delete, Function.update_of_ne hk]
  · rw [← h.2]
    simp only [invalidate]
    split_ifs
    · rw [S.entry_delete, Function.update_of_ne hk]
    · rfl

theorem sameAt_persist
    (hk : k ≠ sid) (fresh : TokenSet) (expiresAt : Int)
    (h : SameAt T S k before (tokens, sessions)) :
    SameAt T S k before (persist now sid fresh expiresAt tokens sessions).1 := by
  have hput := EntryStore.put_other hk tokens now fresh expiresAt
  unfold persist
  rcases hstate : T.put tokens now sid fresh expiresAt with ⟨tokens', e | u⟩
  · rw [hstate] at hput
    exact ⟨hput.trans h.1, h.2⟩
  · rw [hstate] at hput
    exact ⟨hput.trans h.1, h.2⟩

theorem sameAt_storeRefreshed
    (hk : k ≠ sid) (fresh : TokenSet)
    (h : SameAt T S k before (tokens, sessions)) :
    SameAt T S k before (storeRefreshed m now sid fresh tokens sessions).1 := by
  unfold storeRefreshed sessionExpiry
  split_ifs
  · have hget : S.entry (S.get sessions now sid).1 k = S.entry sessions k := S.get_other hk
    rcases hstate : S.get sessions now sid with ⟨sessions', e | v⟩
    · rw [hstate] at hget
      exact sameAt_invalidate hk e ⟨h.1, hget.trans h.2⟩
    · rw [hstate] at hget
      exact sameAt_persist hk fresh v.expiresAt ⟨h.1, hget.trans h.2⟩
  · exact sameAt_invalidate hk _ h

theorem sameAt_renew
    (hk : k ≠ sid) (cur : TokenSet)
    (h : SameAt T S k before (tokens, sessions)) :
    SameAt T S k before (renew m answer now sid cur tokens sessions).1 := by
  unfold renew
  cases answer with
  | error e => exact sameAt_invalidate hk _ h
  | ok a =>
      dsimp only
      split_ifs
      · exact sameAt_invalidate hk _ h
      · exact sameAt_storeRefreshed hk _ h

theorem sameAt_refreshLocked
    (hk : k ≠ sid)
    (h : SameAt T S k before (tokens, sessions)) :
    SameAt T S k before (refreshLocked m answer now sid tokens sessions).1 := by
  have hget := EntryStore.get_other hk tokens now
  unfold refreshLocked
  rcases hstate : T.get tokens now sid with ⟨tokens', e | cur⟩
  · rw [hstate] at hget
    exact ⟨hget.trans h.1, h.2⟩
  · rw [hstate] at hget
    dsimp only
    split_ifs
    · exact ⟨hget.trans h.1, h.2⟩
    · exact ⟨hget.trans h.1, h.2⟩
    · exact sameAt_renew hk cur ⟨hget.trans h.1, h.2⟩

/-- A call touches the entries of its own session only. -/
theorem sameAt_accessToken
    (hk : k ≠ sid) :
    SameAt T S k (tokens, sessions) (accessToken m answer now sid tokens sessions).1 := by
  have hget := EntryStore.get_other hk tokens now
  unfold accessToken
  split_ifs
  · exact ⟨rfl, rfl⟩
  rcases hstate : T.get tokens now sid with ⟨tokens', e | cur⟩
  · rw [hstate] at hget
    exact ⟨hget, rfl⟩
  · rw [hstate] at hget
    dsimp only [useStored]
    split_ifs
    · exact ⟨hget, rfl⟩
    · exact ⟨hget, rfl⟩
    · exact ⟨hget, rfl⟩
    · exact sameAt_refreshLocked hk ⟨hget, rfl⟩

end Frame

/-- **The outcome of an access-token call.**  With stores that do not fail, a refresher
and a session store, a call ends in exactly one of the four ways, and the entries of
other sessions are as before. -/
theorem accessToken_outcome
    (b tb : Backend) (front : Option Session.Lifecycle) (m : Manager)
    (hstore : m.hasStore = true)
    (hrefresher : m.hasRefresher = true)
    (hsessions : m.hasSessions = true)
    (answer : Except Err TokenSet) (now : Int) (sid : String)
    (tokens : (backendEntries tb).State) (sessions : (Session.deployedEntries b front).State)
    (hfail : NotFailing (backendEntries tb) (Session.deployedEntries b front) now sid tokens
      sessions) :
    (∃! k, Ends (backendEntries tb) (Session.deployedEntries b front) m answer now sid tokens
      sessions (accessToken m answer now sid tokens sessions) k) ∧
    ∀ k, k ≠ sid → SameAt (backendEntries tb) (Session.deployedEntries b front) k
      (tokens, sessions) (accessToken m answer now sid tokens sessions).1 := by
  refine ⟨?_, fun k hk => sameAt_accessToken hk⟩
  obtain ⟨k, hk⟩ := exists_ends answer hstore hrefresher hsessions hfail
  exact ⟨k, hk, fun k' hk' => hk'.eq_ending.trans hk.eq_ending.symm⟩

/-- The call that refreshes the tokens of `memoryWorld`, with a `LifecycleStore` in front of
its sessions. -/
theorem accessToken_outcome_memory :
    Ends (backendEntries .memory)
      (Session.deployedEntries .memory (some Session.exampleLifecycle))
      sampleSetting.manager (.ok answeredSet) sampleNow "sid"
      memoryWorld.tokens memoryWorld.sessions
      (accessToken sampleSetting.manager (.ok answeredSet) sampleNow "sid"
        memoryWorld.tokens memoryWorld.sessions) .refreshed := by
  obtain ⟨⟨k, hk, -⟩, -⟩ := accessToken_outcome .memory .memory (some Session.exampleLifecycle)
    sampleSetting.manager rfl rfl rfl (.ok answeredSet) sampleNow "sid"
    memoryWorld.tokens memoryWorld.sessions (notFailing_memory _ _ _)
  obtain rfl : k = .refreshed := hk.eq_ending.trans (by rfl)
  exact hk

end Law

end Token
end GatewayRuntime
