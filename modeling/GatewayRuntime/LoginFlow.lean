import GatewayRuntime.Lib.GoUrlParse
import GatewayRuntime.Lib.Run
import GatewayRuntime.FlowStore
import GatewayRuntime.TokenStore

/-!
# Logins

`Service.StartLogin` and `Service.CompleteCallback` of `internal/auth/service.go`, as
the steps of a transition system.  A step is one operation on the flow store, the
session store, the token store, the identity provider, the clock or the source of
random values.  Any number of calls of both functions interleave.

`Take` of the flow store is two steps: the removal of the flow and the comparison of
its expiry with the clock.  What the session store and the token store answer, and
what the identity provider answers, is part of the input; `S256` is the challenge
method, base64 of the SHA-256 hash.

The lists `issued`, `urls`, `exchanges` and `sessions` record what the calls have
done; no call reads them.
-/

namespace GatewayRuntime
namespace Auth

open Token (TokenSet)

section Model

/-- `auth.Identity`. -/
structure Identity where
  subject : String
  issuer : String
  username : String
  displayName : String
  email : String
  roles : List String

/-- `auth.TokenSet`. -/
structure ProviderTokens where
  accessToken : String
  refreshToken : String
  idToken : String
  expiry : Int

/-- `auth.ExchangeResult`. -/
structure ExchangeResult where
  identity : Identity
  tokens : ProviderTokens

/-- `auth.CallbackResult`. -/
structure CallbackResult where
  sessionID : String
  subject : String
  username : String
  returnTo : String
  expiresAt : Int

/-- The settings of an `auth.Service`. -/
structure Service where
  hasProvider : Bool
  hasFlows : Bool
  redirectURI : String
  flowTTL : Duration
  sessionTTL : Duration
  S256 : String → String

/-- The time a flow lives, five minutes when none is set. -/
def Service.effectiveFlowTTL (svc : Service) : Duration :=
  if svc.flowTTL ≤ 0 then 5 * Duration.minute else svc.flowTTL

/-- The time a session lives, eight hours when none is set. -/
def Service.effectiveSessionTTL (svc : Service) : Duration :=
  if svc.sessionTTL ≤ 0 then 8 * Duration.hour else svc.sessionTTL

/-- `safeLocalReturnTo`. -/
def safeLocalReturnTo (v : String) : Bool :=
  match GoUrl.parse v with
  | none => false
  | some u =>
      if u.scheme ≠ "" || u.host ≠ "" || !GoText.hasPrefix u.url.path "/" then false
      else !GoText.hasPrefix v "//"

/-- Where a call stands: the operation it does next. -/
inductive Pc where
  | idle
  | draw (returnTo : String)
  | readClock (state nonce codeVerifier returnTo : String)
  | putFlow (flow : Flow)
  | authorize (flow : Flow)
  | loginDone (result : Except Err String)
  | take (state code : String)
  | check (code : String) (found : Option Flow) (takenAt : Int)
  | exchange (code : String) (flow : Flow) (takenAt : Int)
  | awaitExchange (flow : Flow)
  | drawSession (flow : Flow) (result : ExchangeResult)
  | readSessionClock (flow : Flow) (result : ExchangeResult) (sessionID : String)
  | putSession (flow : Flow) (session : Session) (tokens : TokenSet)
  | putTokens (flow : Flow) (session : Session) (tokens : TokenSet)
  | deleteSession (err : Err)
  | callbackDone (result : Except Err CallbackResult)

/-- `StartLogin` up to the random values. -/
def beginLogin (svc : Service) (returnTo : String) : Pc :=
  if !svc.hasProvider || !svc.hasFlows then
    .loginDone (.error (.text "auth service is not configured"))
  else
    let returnTo := if returnTo = "" then "/" else returnTo
    if safeLocalReturnTo returnTo then .draw returnTo
    else .loginDone (.error (.leaf .invalidReturnTo))

/-- After `Flows.Put`. -/
def afterPutFlow (flow : Flow) : Except Err Unit → Pc
  | .error e => .loginDone (.error e)
  | .ok () => .authorize flow

/-- `CompleteCallback` up to `Flows.Take`. -/
def beginCallback (state code : String) : Pc :=
  if state = "" || code = "" then .callbackDone (.error (.text "missing state or code"))
  else .take state code

/-- After `Flows.Take`. -/
def afterTake (code : String) (takenAt : Int) : Except Err Flow → Pc
  | .error e => .callbackDone (.error e)
  | .ok flow => .exchange code flow takenAt

/-- After `Provider.Exchange`. -/
def afterExchange (flow : Flow) : Except Err ExchangeResult → Pc
  | .error e => .callbackDone (.error e)
  | .ok result =>
      if result.identity.subject = "" || result.identity.issuer = "" then
        .callbackDone (.error (.text "provider returned incomplete identity"))
      else .drawSession flow result

/-- The session of a login. -/
def newSession (svc : Service) (now : Int) (sessionID : String) (identity : Identity) : Session where
  id := sessionID
  subject := identity.subject
  issuer := identity.issuer
  username := identity.username
  displayName := identity.displayName
  email := identity.email
  roles := identity.roles
  createdAt := now
  expiresAt := GoTime.add now svc.effectiveSessionTTL
  lastSeen := now

/-- The tokens of a login. -/
def newTokens (result : ExchangeResult) : TokenSet where
  accessToken := result.tokens.accessToken
  refreshToken := result.tokens.refreshToken
  idToken := result.tokens.idToken
  expiryUnix := Int64.ofInt (GoTime.unixSeconds result.tokens.expiry)

/-- The result of a login. -/
def callbackResult (flow : Flow) (session : Session) : CallbackResult where
  sessionID := session.id
  subject := session.subject
  username := session.username
  returnTo := flow.returnTo
  expiresAt := session.expiresAt

/-- After `Tokens.Put`. -/
def afterPutTokens (flow : Flow) (session : Session) : Except Err Unit → Pc
  | .error e => .deleteSession e
  | .ok () => .callbackDone (.ok (callbackResult flow session))

end Model

section System

/-- A call of `Provider.AuthorizationURL`. -/
structure AuthorizationCall where
  state : String
  nonce : String
  codeChallenge : String
  redirectURI : String

/-- A call of `Provider.Exchange`, with the state of its callback and the time at which
the flow was taken. -/
structure ExchangeCall where
  state : String
  takenAt : Int
  code : String
  codeVerifier : String
  redirectURI : String
  nonce : String

/-- A session that was created, with the state of its callback and the `ReturnTo` that
goes into the result. -/
structure CreatedSession where
  state : String
  sessionID : String
  returnTo : String

/-- The state: the clock, the flow store, the calls, the random values drawn so far and the
records. -/
structure World (F : Flow.Store) where
  now : Int
  flows : F.State
  calls : Nat → Pc
  drawn : List String
  issued : List Flow
  urls : List AuthorizationCall
  exchanges : List ExchangeCall
  sessions : List CreatedSession

/-- Nothing has been called. -/
def World.initial {F : Flow.Store} (now : Int) (flows : F.State) : World F :=
  ⟨now, flows, fun _ => .idle, [], [], [], [], []⟩

/-- What a call gets from outside. -/
inductive Input where
  | login (returnTo : String)
  | callback (state code : String)
  | ok
  | fault (e : Err)
  | random (state nonce codeVerifier : String)
  | randomID (sessionID : String)
  | url (r : Except Err String)
  | answer (r : Except Err ExchangeResult)

/-- A call moves, or time passes. -/
inductive Event where
  | call (i : Nat) (input : Input)
  | tick (t : Int)

variable {F : Flow.Store} (svc : Service)

/-- Move call `i`. -/
def World.goto (w : World F) (i : Nat) (pc : Pc) : World F :=
  { w with calls := Function.update w.calls i pc }

/-- One step of call `i`.  Random values that have been drawn before are not drawn. -/
def callStep (w : World F) (i : Nat) (input : Input) : Option (World F) :=
  match w.calls i, input with
  | .idle, .login returnTo => some (w.goto i (beginLogin svc returnTo))
  | .idle, .callback state code => some (w.goto i (beginCallback state code))
  | .draw _, .fault e => some (w.goto i (.loginDone (.error e)))
  | .draw returnTo, .random state nonce verifier =>
      if (state :: nonce :: verifier :: w.drawn).Nodup then
        some ({ w with drawn := state :: nonce :: verifier :: w.drawn }.goto i
          (.readClock state nonce verifier returnTo))
      else none
  | .readClock state nonce verifier returnTo, .ok =>
      some (w.goto i
        (.putFlow ⟨state, nonce, verifier, returnTo, GoTime.add w.now svc.effectiveFlowTTL⟩))
  | .putFlow flow, .fault e => some (w.goto i (afterPutFlow flow (.error e)))
  | .putFlow flow, .ok =>
      match (F.put w.flows w.now flow).2 with
      | .error e =>
          some ({ w with flows := (F.put w.flows w.now flow).1 }.goto i
            (afterPutFlow flow (.error e)))
      | .ok () =>
          some ({ w with flows := (F.put w.flows w.now flow).1, issued := flow :: w.issued }.goto i
            (afterPutFlow flow (.ok ())))
  | .authorize flow, .url r =>
      some ({ w with
        urls := ⟨flow.state, flow.nonce, svc.S256 flow.codeVerifier, svc.redirectURI⟩ ::
          w.urls }.goto i (.loginDone r))
  | .take _ _, .fault e => some (w.goto i (.callbackDone (.error e)))
  | .take state code, .ok =>
      some ({ w with flows := (F.consume w.flows w.now state).1 }.goto i
        (.check code (F.consume w.flows w.now state).2 w.now))
  | .check code found takenAt, .ok =>
      some (w.goto i (afterTake code takenAt (Flow.check w.now found)))
  | .exchange code flow takenAt, .ok =>
      some ({ w with
        exchanges := ⟨flow.state, takenAt, code, flow.codeVerifier, svc.redirectURI, flow.nonce⟩ ::
          w.exchanges }.goto i (.awaitExchange flow))
  | .awaitExchange flow, .answer r => some (w.goto i (afterExchange flow r))
  | .drawSession _ _, .fault e => some (w.goto i (.callbackDone (.error e)))
  | .drawSession flow result, .randomID sessionID =>
      if (sessionID :: w.drawn).Nodup then
        some ({ w with drawn := sessionID :: w.drawn }.goto i
          (.readSessionClock flow result sessionID))
      else none
  | .readSessionClock flow result sessionID, .ok =>
      some (w.goto i
        (.putSession flow (newSession svc w.now sessionID result.identity) (newTokens result)))
  | .putSession _ _ _, .fault e => some (w.goto i (.callbackDone (.error e)))
  | .putSession flow session tokens, .ok =>
      some ({ w with sessions := ⟨flow.state, session.id, flow.returnTo⟩ :: w.sessions }.goto i
        (.putTokens flow session tokens))
  | .putTokens flow session _, .fault e => some (w.goto i (afterPutTokens flow session (.error e)))
  | .putTokens flow session _, .ok => some (w.goto i (afterPutTokens flow session (.ok ())))
  | .deleteSession err, .ok => some (w.goto i (.callbackDone (.error err)))
  | .deleteSession err, .fault _ => some (w.goto i (.callbackDone (.error err)))
  | _, _ => none

/-- One step of the system. -/
def step (w : World F) : Event → Option (World F)
  | .call i input => callStep svc w i input
  | .tick t => if w.now ≤ t then some { w with now := t } else none

end System

end Auth
end GatewayRuntime
