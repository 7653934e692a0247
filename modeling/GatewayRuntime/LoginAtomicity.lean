import GatewayRuntime.LoginFlow
import GatewayRuntime.SessionLifetime
import GatewayRuntime.StoreEntries

/-!
# A login is completed as a whole or not at all

`Service.CompleteCallback` as one call that nothing interrupts, over the flow store,
the session store and the token store.  `completeCallback_runs` says that the steps of
`LoginFlow` compute this function, where those leave open what the session store and
the token store answer.

The session is written first; when the token set cannot be written the session is
deleted again.  With a fresh identifier the deletion restores the store
(`completeCallback_all_or_nothing`).
-/

namespace GatewayRuntime
namespace Auth

open Token (TokenSet)

section Model

/-- What a callback gets from outside: the readings of the clock, the random value,
what the identity provider answers, and which operations fail. -/
structure CallbackInput where
  takeAt : Int
  takeFault : Option Err
  checkAt : Int
  answer : Except Err ExchangeResult
  sessionID : Except Err String
  clock : Int
  putSessionAt : Int
  putSessionFault : Option Err
  putTokensAt : Int
  putTokensFault : Option Err
  clock_le : clock ≤ putSessionAt

variable (F : Flow.Store) (S : Session.Store) (T : Token.Store) (svc : Service)

/-- The three stores of a callback. -/
structure Stores where
  flows : F.State
  sessions : S.State
  tokens : T.State

variable {F S T}

/-- `Flows.Take`: the removal of the flow, and the test of its expiry. -/
def takeFlow (inp : CallbackInput) (state : String) (flows : F.State) :
    F.State × Except Err Flow :=
  withFault inp.takeFault flows
    ((F.consume flows inp.takeAt state).1,
      Flow.check inp.checkAt (F.consume flows inp.takeAt state).2)

/-- `CompleteCallback` from the two writes on. -/
def storeLogin (inp : CallbackInput) (flow : Flow) (session : Session) (tokens : TokenSet)
    (st : Stores F S T) : Stores F S T × Except Err CallbackResult :=
  let putSession := withFault inp.putSessionFault st.sessions
    (S.put st.sessions inp.putSessionAt session)
  match putSession.2 with
  | .error e => ({ st with sessions := putSession.1 }, .error e)
  | .ok () =>
      let putTokens := withFault inp.putTokensFault st.tokens
        (T.put st.tokens inp.putTokensAt session.id tokens session.expiresAt)
      match putTokens.2 with
      | .error e =>
          ({ st with sessions := S.delete putSession.1 session.id, tokens := putTokens.1 },
            .error e)
      | .ok () =>
          ({ st with sessions := putSession.1, tokens := putTokens.1 },
            .ok (callbackResult flow session))

/-- `CompleteCallback` from `Provider.Exchange` on. -/
def exchangeLogin (inp : CallbackInput) (flow : Flow) (st : Stores F S T) :
    Stores F S T × Except Err CallbackResult :=
  match inp.answer with
  | .error e => (st, .error e)
  | .ok result =>
      if result.identity.subject = "" || result.identity.issuer = "" then
        (st, .error (.text "provider returned incomplete identity"))
      else
        match inp.sessionID with
        | .error e => (st, .error e)
        | .ok sessionID =>
            storeLogin inp flow (newSession svc inp.clock sessionID result.identity)
              (newTokens result) st

/-- `Service.CompleteCallback`; the compensating `Sessions.Delete` succeeds. -/
def completeCallback (inp : CallbackInput) (state code : String) (st : Stores F S T) :
    Stores F S T × Except Err CallbackResult :=
  if state = "" || code = "" then (st, .error (.text "missing state or code"))
  else
    let taken := takeFlow inp state st.flows
    match taken.2 with
    | .error e => ({ st with flows := taken.1 }, .error e)
    | .ok flow => exchangeLogin svc inp flow { st with flows := taken.1 }

end Model

section Exits

variable {F : Flow.Store} {S : Session.Store} {T : Token.Store}

/-- **The exits of a callback.**  It ends before the writes, with the flow gone or not,
or it reaches them with a complete identity and an identifier. -/
inductive CallbackExit (svc : Service) (inp : CallbackInput) (st : Stores F S T) :
    Stores F S T × Except Err CallbackResult → Prop
  | refused {flows : F.State} {e : Err} :
      CallbackExit svc inp st ({ st with flows := flows }, .error e)
  | writes {flows : F.State} {flow : Flow} {result : ExchangeResult} {sessionID : String}
      (hanswer : inp.answer = .ok result)
      (hsubject : result.identity.subject ≠ "")
      (hissuer : result.identity.issuer ≠ "")
      (hid : inp.sessionID = .ok sessionID) :
      CallbackExit svc inp st
        (storeLogin inp flow (newSession svc inp.clock sessionID result.identity)
          (newTokens result) { st with flows := flows })

theorem completeCallback_exit
    (svc : Service) (inp : CallbackInput) (state code : String) (st : Stores F S T) :
    CallbackExit svc inp st (completeCallback svc inp state code st) := by
  unfold completeCallback
  by_cases hmissing : (state = "" || code = "") = true
  · rw [if_pos hmissing]
    exact .refused
  rw [if_neg hmissing]
  dsimp only
  cases (takeFlow inp state st.flows).2 with
  | error e => exact .refused
  | ok flow =>
      unfold exchangeLogin
      cases hanswer : inp.answer with
      | error e => exact .refused
      | ok result =>
          dsimp only
          by_cases hidentity :
              (result.identity.subject = "" || result.identity.issuer = "") = true
          · rw [if_pos hidentity]
            exact .refused
          rw [if_neg hidentity]
          simp only [Bool.or_eq_true, decide_eq_true_eq, not_or] at hidentity
          cases hid : inp.sessionID with
          | error e => exact .refused
          | ok sessionID => exact .writes hanswer hidentity.1 hidentity.2 hid

end Exits

section Writes

variable {F : Flow.Store} {S : Session.EntryStore} {T : Token.EntryStore}

/-- **The two writes under an identifier that is in neither store**: both entries are
new, or both stores are as before. -/
theorem storeLogin_cases
    (inp : CallbackInput) (flow : Flow) (session : Session) (tokens : TokenSet)
    (st : Stores F S.toStore T.toStore)
    (hfresh : S.entry st.sessions session.id = none) :
    (∃ sessions' tokens',
      storeLogin inp flow session tokens st =
        ({ st with sessions := sessions', tokens := tokens' },
          .ok (callbackResult flow session)) ∧
      S.entry sessions' = Function.update (S.entry st.sessions) session.id
        (some (S.writes inp.putSessionAt session)) ∧
      T.entry tokens' = Function.update (T.entry st.tokens) session.id
        (some (T.writes inp.putTokensAt session.expiresAt tokens))) ∨
    ∃ e, storeLogin inp flow session tokens st = (st, .error e) := by
  unfold storeLogin
  dsimp only
  cases hsession : (withFault inp.putSessionFault st.sessions
      (S.put st.sessions inp.putSessionAt session)).2 with
  | error e =>
      right
      exact ⟨e, by rw [withFault_error (fun _ => S.put_error) hsession]⟩
  | ok u =>
      obtain ⟨hput, hok⟩ := withFault_ok hsession
      rw [hput]
      cases htokens : (withFault inp.putTokensFault st.tokens
          (T.put st.tokens inp.putTokensAt session.id tokens session.expiresAt)).2 with
      | error e =>
          right
          refine ⟨e, ?_⟩
          -- the deletion takes back the only entry that was written
          have hback : S.delete (S.put st.sessions inp.putSessionAt session).1 session.id =
              st.sessions := by
            apply S.entry_inj
            rw [S.entry_delete, S.put_ok hok, Function.update_idem, ← hfresh,
              Function.update_eq_self]
          dsimp only
          rw [hback, withFault_error (fun _ => T.put_error) htokens]
      | ok u =>
          left
          obtain ⟨hputTokens, hokTokens⟩ := withFault_ok htokens
          rw [hputTokens]
          exact ⟨_, _, rfl, S.put_ok hok, T.entry_put_ok hokTokens⟩

end Writes

section Steps

variable {F : Flow.Store} {S : Session.Store} {T : Token.Store}

/-- From `w` some run lets callback `i` return `result`, with these flows stored. -/
def Returns (svc : Service) (w : World F) (i : Nat) (flows : F.State)
    (result : Except Err CallbackResult) : Prop :=
  Run.Reaches (step svc) w fun w' => w'.flows = flows ∧ w'.calls i = .callbackDone result

/-- Wait for a later reading of the clock. -/
theorem Returns.wait
    {svc : Service} {w : World F} {i : Nat} {flows : F.State}
    {result : Except Err CallbackResult} {t : Int}
    (hle : w.now ≤ t)
    (h : Returns svc { w with now := t } i flows result) :
    Returns svc w i flows result :=
  Run.Reaches.after (e := .tick t) (if_pos hle) h

/-- The two writes. -/
theorem storeLogin_returns
    (svc : Service) (inp : CallbackInput) (flow : Flow) (session : Session) (tokens : TokenSet)
    (st : Stores F S T) (w : World F) (i : Nat)
    (hcall : w.calls i = .putSession flow session tokens)
    (hflows : w.flows = st.flows) :
    Returns svc w i (storeLogin inp flow session tokens st).1.flows
      (storeLogin inp flow session tokens st).2 := by
  unfold storeLogin
  dsimp only
  cases (withFault inp.putSessionFault st.sessions
      (S.put st.sessions inp.putSessionAt session)).2 with
  | error e =>
      refine Run.Reaches.after (e := .call i (.fault e)) (by simp [step, callStep, hcall]; rfl) ?_
      exact Run.Reaches.here ⟨hflows, (by simp [World.goto])⟩
  | ok u =>
      refine Run.Reaches.after (e := .call i .ok) (by simp [step, callStep, hcall]; rfl) ?_
      cases (withFault inp.putTokensFault st.tokens
          (T.put st.tokens inp.putTokensAt session.id tokens session.expiresAt)).2 with
      | error e =>
          refine Run.Reaches.after (e := .call i (.fault e)) (by simp [step, callStep, World.goto]; rfl) ?_
          refine Run.Reaches.after (e := .call i .ok)
            (by simp [step, callStep, World.goto, afterPutTokens]; rfl) ?_
          exact Run.Reaches.here ⟨hflows, (by simp)⟩
      | ok u =>
          refine Run.Reaches.after (e := .call i .ok) (by simp [step, callStep, World.goto]; rfl) ?_
          exact Run.Reaches.here ⟨hflows, (by simp [afterPutTokens])⟩

/-- From the call of the identity provider to the writes. -/
theorem exchange_returns
    (svc : Service) (inp : CallbackInput) (code : String) (flow : Flow) (takenAt : Int)
    (st : Stores F S T) (w : World F) (i : Nat)
    (hcall : w.calls i = .exchange code flow takenAt)
    (hflows : w.flows = st.flows)
    (hclock : w.now ≤ inp.clock)
    (hfresh : ∀ sid, inp.sessionID = .ok sid → (sid :: w.drawn).Nodup) :
    Returns svc w i (exchangeLogin svc inp flow st).1.flows
      (exchangeLogin svc inp flow st).2 := by
  refine Run.Reaches.after (e := .call i .ok) (by simp [step, callStep, hcall]; rfl) ?_
  refine Run.Reaches.after (e := .call i (.answer inp.answer)) (by simp [step, callStep, World.goto]; rfl) ?_
  unfold exchangeLogin
  cases inp.answer with
  | error e => exact Run.Reaches.here ⟨hflows, (by simp [afterExchange])⟩
  | ok result =>
      dsimp only
      by_cases hidentity : (result.identity.subject = "" || result.identity.issuer = "") = true
      · rw [if_pos hidentity]
        exact Run.Reaches.here ⟨hflows, (by simp [afterExchange, hidentity])⟩
      rw [if_neg hidentity]
      have hafter : afterExchange flow (.ok result) = .drawSession flow result := if_neg hidentity
      cases hid : inp.sessionID with
      | error e =>
          refine Run.Reaches.after (e := .call i (.fault e))
            (by simp [step, callStep, World.goto, hafter]; rfl) ?_
          exact Run.Reaches.here ⟨hflows, (by simp)⟩
      | ok sessionID =>
          have hnodup := hfresh sessionID hid
          refine Run.Reaches.after (e := .call i (.randomID sessionID))
            (by simp only [step, callStep, World.goto, hafter, Function.update_self,
                  if_pos hnodup]; rfl) ?_
          refine Returns.wait hclock ?_
          refine Run.Reaches.after (e := .call i .ok) (by simp [step, callStep, World.goto]; rfl) ?_
          exact storeLogin_returns svc inp flow _ _ st _ i (by simp) hflows

/-- The readings of the clock are in the order of the calls. -/
structure CallbackInput.Ordered (inp : CallbackInput) (now : Int) : Prop where
  now_le : now ≤ inp.takeAt
  takeAt_le : inp.takeAt ≤ inp.checkAt
  checkAt_le : inp.checkAt ≤ inp.clock

/-- The steps of a callback that nothing interrupts compute `completeCallback`. -/
theorem completeCallback_runs
    (svc : Service) (inp : CallbackInput) (state code : String) (st : Stores F S T)
    (w : World F) (i : Nat)
    (hidle : w.calls i = .idle)
    (hflows : w.flows = st.flows)
    (htimes : inp.Ordered w.now)
    (hfresh : ∀ sid, inp.sessionID = .ok sid → (sid :: w.drawn).Nodup) :
    Returns svc w i (completeCallback svc inp state code st).1.flows
      (completeCallback svc inp state code st).2 := by
  refine Run.Reaches.after (e := .call i (.callback state code)) (by simp [step, callStep, hidle]; rfl) ?_
  unfold completeCallback
  by_cases hmissing : (state = "" || code = "") = true
  · rw [if_pos hmissing, ← hflows]
    exact Run.Reaches.here ⟨rfl, (by simp [World.goto, beginCallback, hmissing])⟩
  rw [if_neg hmissing]
  refine Returns.wait htimes.now_le ?_
  unfold takeFlow
  cases inp.takeFault with
  | some e =>
      simp only [withFault, ← hflows]
      refine Run.Reaches.after (e := .call i (.fault e))
        (by simp [step, callStep, World.goto, beginCallback, hmissing]; rfl) ?_
      exact Run.Reaches.here ⟨rfl, (by simp)⟩
  | none =>
      simp only [withFault, ← hflows]
      refine Run.Reaches.after (e := .call i .ok)
        (by simp [step, callStep, World.goto, beginCallback, hmissing]; rfl) ?_
      refine Returns.wait htimes.takeAt_le ?_
      refine Run.Reaches.after (e := .call i .ok) (by simp [step, callStep, World.goto]; rfl) ?_
      cases Flow.check inp.checkAt (F.consume w.flows inp.takeAt state).2 with
      | error e => exact Run.Reaches.here ⟨rfl, (by simp [afterTake])⟩
      | ok flow =>
          exact exchange_returns svc inp code flow inp.takeAt _ _ i
            (by simp [afterTake]) rfl htimes.checkAt_le hfresh

end Steps

section Law

variable {F : Flow.Store} {S : Session.EntryStore} {T : Token.EntryStore}

/-- A `LifecycleStore` with the lifetime of the service writes the session of a login
with the expiry that it has. -/
theorem prepare_newSession
    (cfg : Session.Lifecycle) (svc : Service) {clock now : Int} (sid : String)
    (identity : Identity)
    (hmax : cfg.maxLifetime = svc.sessionTTL)
    (hle : clock ≤ now) :
    (cfg.prepare now (newSession svc clock sid identity)).expiresAt =
      (newSession svc clock sid identity).expiresAt := by
  by_cases hpos : 0 < cfg.maxLifetime
  · have httl : svc.effectiveSessionTTL = cfg.maxLifetime := by
      rw [hmax] at hpos ⊢
      exact if_neg (Int64.not_le.mpr hpos)
    have hpos' : 0 < cfg.maxLifetime.toInt := Int64.lt_iff_toInt_lt.mp hpos
    rw [Session.prepare_expiresAt hpos]
    simp only [newSession, Session.Lifecycle.prepare, httl, GoTime.add, GoTime.isZero_iff]
    -- a reading of the zero time counts as none, and the time of the write stands for it
    split_ifs <;> omega
  · simp [Session.Lifecycle.prepare, hpos]

/-- What a deployed store writes for the session of a login. -/
theorem written_newSession
    (b : Backend) (front : Option Session.Lifecycle) (svc : Service)
    {clock now : Int} (sid : String) (identity : Identity)
    (hfront : ∀ cfg, front = some cfg → cfg.maxLifetime = svc.sessionTTL)
    (hle : clock ≤ now) :
    let v := newSession svc clock sid identity
    let v' := (Session.deployedEntries b front).written now v
    v'.id = v.id ∧ v'.subject = v.subject ∧ v'.issuer = v.issuer ∧ v'.expiresAt = v.expiresAt := by
  cases front with
  | none =>
      simp only [Session.deployedEntries, Session.backendEntries_written, and_self]
  | some cfg =>
      exact ⟨rfl, rfl, rfl, prepare_newSession cfg svc sid identity (hfront cfg rfl) hle⟩

/-- **What a completed login has stored**: under an identifier that was in neither store,
the session of the exchanged identity and the exchanged tokens, both with the expiry of
the result. -/
structure LoggedIn (S : Session.EntryStore) (T : Token.EntryStore) (inp : CallbackInput)
    (answer : ExchangeResult) (st st' : Stores F S.toStore T.toStore) (r : CallbackResult) :
    Prop where
  subject_ne : answer.identity.subject ≠ ""
  issuer_ne : answer.identity.issuer ≠ ""
  new_session : S.entry st.sessions r.sessionID = none
  new_tokens : T.entry st.tokens r.sessionID = none
  session : ∃ e,
    S.entry st'.sessions = Function.update (S.entry st.sessions) r.sessionID (some e) ∧
      (S.session e).id = r.sessionID ∧
      (S.session e).subject = answer.identity.subject ∧
      (S.session e).issuer = answer.identity.issuer ∧
      (S.session e).expiresAt = r.expiresAt
  tokens :
    T.entry st'.tokens = Function.update (T.entry st.tokens) r.sessionID
      (some (T.writes inp.putTokensAt r.expiresAt (newTokens answer)))

/-- **A login is completed as a whole or not at all.**  The random identifier is fresh;
with a `LifecycleStore` in front, its lifetime is that of the service. -/
theorem completeCallback_all_or_nothing
    (F : Flow.Store) (b tb : Backend) (front : Option Session.Lifecycle) (svc : Service)
    (hfront : ∀ cfg, front = some cfg → cfg.maxLifetime = svc.sessionTTL)
    (inp : CallbackInput) (state code : String)
    (st st' : Stores F (Session.deployedEntries b front).toStore (Token.backendEntries tb).toStore)
    (result : Except Err CallbackResult)
    (hfresh : ∀ sid, inp.sessionID = .ok sid →
      (Session.deployedEntries b front).entry st.sessions sid = none ∧
        (Token.backendEntries tb).entry st.tokens sid = none)
    (h : completeCallback svc inp state code st = (st', result)) :
    (∀ r, result = .ok r →
      ∃ answer, inp.answer = .ok answer ∧
        LoggedIn (Session.deployedEntries b front) (Token.backendEntries tb) inp answer st st' r) ∧
      (∀ e, result = .error e → st'.sessions = st.sessions ∧ st'.tokens = st.tokens) := by
  have hexit := completeCallback_exit svc inp state code st
  rw [h] at hexit
  generalize hout : (st', result) = out at hexit
  cases hexit with
  | refused =>
      cases hout
      exact ⟨fun r hr => (by cases hr), fun e _ => ⟨rfl, rfl⟩⟩
  | @writes flows flow answer sid hanswer hsubject hissuer hid =>
      obtain ⟨hsession, htokens⟩ := hfresh sid hid
      rcases storeLogin_cases inp flow (newSession svc inp.clock sid answer.identity)
          (newTokens answer) { st with flows := flows } hsession with
        ⟨sessions', tokens', hstore, hsessions', htokens'⟩ | ⟨e, hstore⟩
      · rw [hstore] at hout
        cases hout
        refine ⟨?_, fun e he => (by cases he)⟩
        rintro r hr
        cases hr
        obtain ⟨hwid, hwsubject, hwissuer, hwexpires⟩ :=
          written_newSession b front svc sid answer.identity hfront inp.clock_le
        refine ⟨answer, hanswer, hsubject, hissuer, hsession, htokens,
          ⟨_, hsessions', ?_, ?_, ?_, ?_⟩, htokens'⟩
        · rw [Session.EntryStore.session_writes, hwid]
          rfl
        · rw [Session.EntryStore.session_writes, hwsubject]
          rfl
        · rw [Session.EntryStore.session_writes, hwissuer]
          rfl
        · rw [Session.EntryStore.session_writes, hwexpires]
          rfl
      · rw [hstore] at hout
        cases hout
        exact ⟨fun r hr => (by cases hr), fun e _ => ⟨rfl, rfl⟩⟩

section Sample

def loginService : Service where
  hasProvider := true
  hasFlows := true
  redirectURI := "https://app.example.org/auth/callback"
  flowTTL := 0
  sessionTTL := 8 * Duration.hour
  S256 verifier := verifier

def loginLifecycle : Session.Lifecycle where
  maxLifetime := 8 * Duration.hour
  idleTimeout := 0
  touchInterval := 0

def loginFlow : Flow :=
  ⟨"state", "nonce", "verifier", "/", 900⟩

def loginAnswer : ExchangeResult :=
  ⟨⟨"u1", "iss", "u", "U", "u@example.org", []⟩, ⟨"access", "refresh", "id", 5000⟩⟩

/-- A callback without failures. -/
def loginInput : CallbackInput where
  takeAt := 100
  takeFault := none
  checkAt := 200
  answer := .ok loginAnswer
  sessionID := .ok "sid"
  clock := 300
  putSessionAt := 400
  putSessionFault := none
  putTokensAt := 500
  putTokensFault := none
  clock_le := by decide

/-- The memory stores, with the flow of a login. -/
def loginStores : Stores Flow.memoryStore
    (Session.deployedEntries .memory (some loginLifecycle)).toStore
    (Token.backendEntries .memory).toStore where
  flows := Flow.MemoryState.empty.put loginFlow
  sessions := Session.MemoryState.empty
  tokens := (Table.empty : Token.MemoryState)

theorem completeCallback_all_or_nothing_memory :
    ∃ st' r,
      completeCallback loginService loginInput "state" "code" loginStores = (st', .ok r) ∧
        ∃ answer, loginInput.answer = .ok answer ∧
          LoggedIn (Session.deployedEntries .memory (some loginLifecycle))
            (Token.backendEntries .memory) loginInput answer loginStores st' r := by
  obtain ⟨st', r, h⟩ : ∃ st' r,
      completeCallback loginService loginInput "state" "code" loginStores = (st', .ok r) :=
    ⟨_, _, rfl⟩
  refine ⟨st', r, h, ?_⟩
  have hlaw := completeCallback_all_or_nothing Flow.memoryStore .memory .memory
    (some loginLifecycle) loginService (fun cfg hcfg => by cases hcfg; rfl) loginInput "state"
    "code" loginStores st' (.ok r) (fun _ _ => ⟨rfl, rfl⟩) h
  exact hlaw.1 r rfl

end Sample

end Law

end Auth
end GatewayRuntime
