import GatewayRuntime.LoginOnce

/-!
# The identity of a login

`Provider.Exchange` of `internal/auth/oidc/provider.go`, put into the logins of
`LoginFlow`.  What the token endpoint answers is arbitrary: it may hand out the ID token
of another login, or an old one.  What the exchange makes of the answer is computed.
The verifier of ID tokens is arbitrary as well, except that what a token says depends on
the token alone.

Whatever the endpoint answers, the identity of a session is that of an accepted ID token
which carries the nonce of the login, and an ID token logs in at most once.  The nonces
are tickets: minted when they are drawn, passed when their flow is issued.

The list `logins` records the sessions with their flows and tokens; no call reads it.
-/

namespace GatewayRuntime
namespace Oidc

open Auth (Identity ExchangeResult Service Pc Input afterExchange newSession newTokens)
open Token (TokenSet)
open Relation (ReflTransGen)

section Exchange

/-- An `oauth2.Token`.  The last two fields are the strings that `Extra` finds under
`id_token` and `refresh_token`. -/
structure OAuthToken where
  accessToken : String
  refreshToken : String
  expiry : Int
  extraIDToken : Option String
  extraRefreshToken : Option String

/-- `idClaims`. -/
structure IDClaims where
  subject : String
  issuer : String
  name : String
  preferredUsername : String
  email : String
  roles : List String

/-- What an ID token says; decoding its claims may fail. -/
structure IDToken where
  nonce : String
  expiry : Int
  claims : Except Err IDClaims

/-- A verifier of ID tokens. -/
structure Verifier where
  payload : String → IDToken
  accepts : (now : Int) → String → Except Err Unit

/-- `IDTokenVerifier.Verify`. -/
def Verifier.verify (V : Verifier) (now : Int) (rawIDToken : String) : Except Err IDToken :=
  (V.accepts now rawIDToken).map fun _ => V.payload rawIDToken

/-- The identity that the claims give. -/
def IDClaims.identity (claims : IDClaims) : Identity where
  subject := claims.subject
  issuer := claims.issuer
  username := claims.preferredUsername
  displayName := if claims.name = "" then claims.preferredUsername else claims.name
  email := claims.email
  roles := claims.roles

/-- The refresh token of an answer, the extra field first. -/
def OAuthToken.refresh (t : OAuthToken) : String :=
  let refreshToken := t.extraRefreshToken.getD ""
  if refreshToken = "" then t.refreshToken else refreshToken

/-- The expiry of an answer, that of the ID token when it has none. -/
def OAuthToken.expiryOr (t : OAuthToken) (idToken : IDToken) (now : Int) : Int :=
  if GoTime.isZero t.expiry && GoTime.after idToken.expiry now then idToken.expiry else t.expiry

/-- `Provider.Exchange`, from the answer of the token endpoint on. -/
def exchange
    (V : Verifier) (now : Int) (expectedNonce : String) :
    Except Err OAuthToken → Except Err ExchangeResult
  | .error e => .error (.wrap "oidc token exchange: " "" e)
  | .ok oauthToken =>
      let rawIDToken := oauthToken.extraIDToken.getD ""
      if rawIDToken = "" then .error (.text "oidc token response missing id_token")
      else
        match V.verify now rawIDToken with
        | .error e => .error (.wrap "oidc verify id_token: " "" e)
        | .ok idToken =>
            if expectedNonce = "" ∨ idToken.nonce ≠ expectedNonce then
              .error (.text "oidc nonce mismatch")
            else
              match idToken.claims with
              | .error e => .error (.wrap "oidc decode claims: " "" e)
              | .ok claims =>
                  .ok ⟨claims.identity,
                    ⟨oauthToken.accessToken, oauthToken.refresh, rawIDToken,
                      oauthToken.expiryOr idToken now⟩⟩

/-- The ID token was accepted at `t` and gives the identity to the login with the nonce. -/
structure Vouches (V : Verifier) (t : Int) (idToken nonce : String) (identity : Identity) : Prop where
  accepted : V.accepts t idToken = .ok ()
  nonce_eq : (V.payload idToken).nonce = nonce
  nonce_ne : nonce ≠ ""
  identity_eq : ∃ claims, (V.payload idToken).claims = .ok claims ∧ identity = claims.identity

theorem vouches_of_exchange
    {V : Verifier} {now : Int} {nonce : String} {answer : Except Err OAuthToken}
    {result : ExchangeResult}
    (h : exchange V now nonce answer = .ok result) :
    Vouches V now result.tokens.idToken nonce result.identity := by
  cases answer with
  | error e => cases h
  | ok oauthToken =>
      simp only [exchange, Verifier.verify] at h
      split_ifs at h with hraw
      cases haccepts : V.accepts now (oauthToken.extraIDToken.getD "") with
      | error e =>
          rw [haccepts] at h
          cases h
      | ok _ =>
          simp only [haccepts, Except.map] at h
          split_ifs at h with hnonce
          rw [not_or, not_not] at hnonce
          split at h
          · cases h
          · next claims hclaims =>
              cases h
              exact ⟨haccepts, hnonce.2, hnonce.1, claims, hclaims, rfl⟩

end Exchange

section System

/-- A session that was created, with the flow of its callback and the tokens that go into the
token store. -/
structure Login where
  flow : Flow
  session : Session
  tokens : TokenSet

/-- The record of a login in the gateway. -/
def Login.record (l : Login) : Auth.CreatedSession :=
  ⟨l.flow.state, l.session.id, l.flow.returnTo⟩

/-- The gateway and its logins. -/
structure World (F : Flow.Store) where
  gateway : Auth.World F
  logins : List Login

/-- Nothing has been called. -/
def World.initial {F : Flow.Store} (now : Int) (flows : F.State) : World F :=
  ⟨.initial now flows, []⟩

/-- A call moves, the token endpoint answers a call, or time passes. -/
inductive Event where
  | call (i : Nat) (input : Input)
  | answer (i : Nat) (answer : Except Err OAuthToken)
  | tick (t : Int)

/-- The session that a call creates with an input. -/
def created : Pc → Input → List Login
  | .putSession flow session tokens, .ok => [⟨flow, session, tokens⟩]
  | _, _ => []

variable {F : Flow.Store} (V : Verifier) (svc : Service)

/-- One step.  What an exchange gives comes from the answer of the token endpoint only. -/
def step (w : World F) : Event → Option (World F)
  | .call _ (.answer _) => none
  | .call i input =>
      (Auth.callStep svc w.gateway i input).map fun gateway =>
        ⟨gateway, created (w.gateway.calls i) input ++ w.logins⟩
  | .answer i answer =>
      match w.gateway.calls i with
      | .awaitExchange flow =>
          (Auth.callStep svc w.gateway i
            (.answer (exchange V w.gateway.now flow.nonce answer))).map (⟨·, w.logins⟩)
      | _ => none
  | .tick t => (Auth.step svc w.gateway (.tick t)).map (⟨·, w.logins⟩)

variable {V svc}

/-- An input that a call can get: an answer is that of an exchange with the nonce of the call. -/
def Computed (V : Verifier) (w : Auth.World F) (i : Nat) (input : Input) : Prop :=
  ∀ r, input = .answer r →
    ∃ flow answer, w.calls i = .awaitExchange flow ∧ r = exchange V w.now flow.nonce answer

theorem step_cases
    {w w' : World F} {e : Event}
    (h : step V svc w e = some w') :
    (∃ i input, Auth.callStep svc w.gateway i input = some w'.gateway ∧
      w'.logins = created (w.gateway.calls i) input ++ w.logins ∧
      Computed V w.gateway i input) ∨
    (∃ t, w.gateway.now ≤ t ∧ w' = ⟨{ w.gateway with now := t }, w.logins⟩) := by
  cases e with
  | call i input =>
      have hplain : (∀ r, input ≠ .answer r) ∧
          ∃ gateway, Auth.callStep svc w.gateway i input = some gateway ∧
            w' = ⟨gateway, created (w.gateway.calls i) input ++ w.logins⟩ := by
        cases input with
        | answer r => cases h
        | _ =>
            obtain ⟨gateway, hcall, rfl⟩ := Option.map_eq_some_iff.mp h
            exact ⟨nofun, gateway, hcall, rfl⟩
      obtain ⟨hinput, gateway, hcall, rfl⟩ := hplain
      exact Or.inl ⟨i, input, hcall, rfl, fun r hr => absurd hr (hinput r)⟩
  | answer i answer =>
      simp only [step] at h
      split at h
      · next flow hpc =>
          obtain ⟨gateway, hcall, rfl⟩ := Option.map_eq_some_iff.mp h
          refine Or.inl ⟨i, _, hcall, by rw [hpc]; rfl, fun r hr => ?_⟩
          cases hr
          exact ⟨flow, answer, hpc, rfl⟩
      · cases h
  | tick t =>
      obtain ⟨gateway, htick, rfl⟩ := Option.map_eq_some_iff.mp h
      simp only [Auth.step] at htick
      split_ifs at htick with hle
      cases htick
      exact Or.inr ⟨t, hle, rfl⟩

end System

section Turns

variable {F : Flow.Store} {V : Verifier} {svc : Service}

/-- The nonce that a call has drawn for the flow it issues. -/
def nonceTicket : Pc → Option (String × Nat)
  | .readClock _ nonce _ _ => some (nonce, 0)
  | .putFlow flow => some (flow.nonce, 0)
  | _ => none

/-- The nonces as tickets. -/
def nonceTickets (w : Auth.World F) : Ticket.State String Nat where
  minted k := k ∈ w.drawn
  stored _ := False
  holder i := nonceTicket (w.calls i)
  passed
    | 0 => w.issued.map Flow.nonce
    | _ => []

/-- The call has neither a nonce nor an identity in hand. -/
def emptyHanded : Pc → Bool
  | .readClock _ _ _ _ | .putFlow _ => false
  | .drawSession _ _ | .readSessionClock _ _ _ | .putSession _ _ _ => false
  | _ => true

/-- What a step of call `i` does with the nonces and the identities. -/
inductive Turn (svc : Service) (w : Auth.World F) (i : Nat) : Input → Auth.World F → Prop
  | draw
      {returnTo state nonce verifier : String}
      (hpc : w.calls i = .draw returnTo)
      (hnew : (state :: nonce :: verifier :: w.drawn).Nodup) :
      Turn svc w i (.random state nonce verifier)
        ({ w with drawn := state :: nonce :: verifier :: w.drawn }.goto i
          (.readClock state nonce verifier returnTo))
  | date
      {state nonce verifier returnTo : String} {expiresAt : Int}
      (hpc : w.calls i = .readClock state nonce verifier returnTo) :
      Turn svc w i .ok (w.goto i (.putFlow ⟨state, nonce, verifier, returnTo, expiresAt⟩))
  | issue
      {flow : Flow} {flows : F.State}
      (hpc : w.calls i = .putFlow flow) :
      Turn svc w i .ok
        ({ w with flows := flows, issued := flow :: w.issued }.goto i (.authorize flow))
  | answer
      {flow : Flow} {r : Except Err ExchangeResult}
      (hpc : w.calls i = .awaitExchange flow) :
      Turn svc w i (.answer r) (w.goto i (afterExchange flow r))
  | name
      {flow : Flow} {result : ExchangeResult} {sessionID : String}
      (hpc : w.calls i = .drawSession flow result) :
      Turn svc w i (.randomID sessionID)
        ({ w with drawn := sessionID :: w.drawn }.goto i (.readSessionClock flow result sessionID))
  | fill
      {flow : Flow} {result : ExchangeResult} {sessionID : String}
      (hpc : w.calls i = .readSessionClock flow result sessionID) :
      Turn svc w i .ok
        (w.goto i
          (.putSession flow (newSession svc w.now sessionID result.identity) (newTokens result)))
  | create
      {flow : Flow} {session : Session} {tokens : TokenSet}
      (hpc : w.calls i = .putSession flow session tokens) :
      Turn svc w i .ok
        ({ w with sessions := ⟨flow.state, session.id, flow.returnTo⟩ :: w.sessions }.goto i
          (.putTokens flow session tokens))
  | other
      {input : Input} {flows : F.State} {urls : List Auth.AuthorizationCall}
      {exchanges : List Auth.ExchangeCall}
      (pc : Pc)
      (hempty : emptyHanded pc = true)
      (hcreated : created (w.calls i) input = []) :
      Turn svc w i input
        ({ w with flows := flows, urls := urls, exchanges := exchanges }.goto i pc)

theorem turn_of_callStep
    {w w' : Auth.World F} {i : Nat} {input : Input}
    (h : Auth.callStep svc w i input = some w') :
    Turn svc w i input w' := by
  unfold Auth.callStep at h
  split at h <;> try cases h
  · next hpc =>
      -- `StartLogin`
      refine .other _ ?_ (by rw [hpc]; rfl)
      unfold Auth.beginLogin
      simp only
      split_ifs <;> rfl
  · next hpc =>
      -- `CompleteCallback`
      refine .other _ ?_ (by rw [hpc]; rfl)
      unfold Auth.beginCallback
      split_ifs <;> rfl
  · next hpc => exact .other _ rfl (by rw [hpc]; rfl)
  · next hpc =>
      split_ifs at h with hnew
      cases h
      exact .draw hpc hnew
  · next hpc => exact .date hpc
  · next hpc => exact .other _ rfl (by rw [hpc]; rfl)
  · next hpc =>
      split at h
      · cases h
        exact .other _ rfl (by rw [hpc]; rfl)
      · cases h
        exact .issue hpc
  · next hpc => exact .other _ rfl (by rw [hpc]; rfl)
  · next hpc => exact .other _ rfl (by rw [hpc]; rfl)
  · next hpc => exact .other _ rfl (by rw [hpc]; rfl)
  · next code found takenAt hpc =>
      refine .other _ ?_ (by rw [hpc]; rfl)
      cases Flow.check w.now found <;> rfl
  · next hpc => exact .other _ rfl (by rw [hpc]; rfl)
  · next hpc => exact .answer hpc
  · next hpc => exact .other _ rfl (by rw [hpc]; rfl)
  · next hpc =>
      split_ifs at h with hnew
      cases h
      exact .name hpc
  · next hpc => exact .fill hpc
  · next hpc => exact .other _ rfl (by rw [hpc]; rfl)
  · next hpc => exact .create hpc
  · next hpc => exact .other _ rfl (by rw [hpc]; rfl)
  · next hpc => exact .other _ rfl (by rw [hpc]; rfl)
  · next hpc => exact .other _ rfl (by rw [hpc]; rfl)
  · next hpc => exact .other _ rfl (by rw [hpc]; rfl)

theorem nonceTickets_goto (w : Auth.World F) (i : Nat) (pc : Pc) :
    nonceTickets (w.goto i pc) =
      { nonceTickets w with
        holder := Function.update (nonceTickets w).holder i (nonceTicket pc) } := by
  have hholder : (fun j => nonceTicket (Function.update w.calls i pc j)) =
      Function.update (fun j => nonceTicket (w.calls j)) i (nonceTicket pc) :=
    Function.comp_update nonceTicket w.calls i pc
  simp only [Auth.World.goto, nonceTickets, hholder]

theorem nonceTicket_of_emptyHanded
    {pc : Pc}
    (h : emptyHanded pc = true) :
    nonceTicket pc = none := by
  cases pc <;> first | rfl | cases h

/-- A call goes on with the nonce it has in hand, or without one. -/
theorem nonceMoves_goto
    (w : Auth.World F) (i : Nat) (pc : Pc)
    (h : nonceTicket pc = nonceTicket (w.calls i) ∨ nonceTicket pc = none) :
    ReflTransGen (Ticket.Move 0) (nonceTickets w) (nonceTickets (w.goto i pc)) := by
  rw [nonceTickets_goto]
  rcases h with h | h
  · rw [h, show nonceTicket (w.calls i) = (nonceTickets w).holder i from rfl,
      Function.update_eq_self]
  · rw [h]
    exact ReflTransGen.single (.drop i)

/-- Values that are used up otherwise cannot be drawn as nonces. -/
theorem nonceMoves_drawn
    (w : Auth.World F) {drawn : List String}
    (h : ∀ k, k ∈ w.drawn → k ∈ drawn) :
    Ticket.Move 0 (nonceTickets w) (nonceTickets { w with drawn := drawn }) :=
  .lose h (fun _ => id) rfl rfl

/-- A login draws a new nonce. -/
theorem nonceMoves_draw
    {w : Auth.World F} {i : Nat} {returnTo state nonce verifier : String}
    (hpc : w.calls i = .draw returnTo)
    (hnew : (state :: nonce :: verifier :: w.drawn).Nodup) :
    ReflTransGen (Ticket.Move 0) (nonceTickets w)
      (nonceTickets ({ w with drawn := state :: nonce :: verifier :: w.drawn }.goto i
        (.readClock state nonce verifier returnTo))) := by
  have hnonce : nonce ∉ w.drawn := fun hmem =>
    (List.nodup_cons.mp (List.nodup_cons.mp hnew).2).1 (List.mem_cons_of_mem _ hmem)
  have hmint : Ticket.Move 0 (nonceTickets w) _ :=
    .mint i nonce (by simp [nonceTickets, hpc, nonceTicket]) hnonce
  refine (ReflTransGen.single hmint).tail (.lose (fun k hk => ?_) (fun k hk => hk) ?_ rfl)
  · rcases hk with hk | rfl
    · exact List.mem_cons_of_mem _ (List.mem_cons_of_mem _ (List.mem_cons_of_mem _ hk))
    · exact List.mem_cons_of_mem _ List.mem_cons_self
  · rw [nonceTickets_goto]
    rfl

/-- A flow is issued with its nonce. -/
theorem nonceMoves_issue
    {w : Auth.World F} {i : Nat} {flow : Flow} (flows : F.State)
    (hpc : w.calls i = .putFlow flow) :
    ReflTransGen (Ticket.Move 0) (nonceTickets w)
      (nonceTickets
        ({ w with flows := flows, issued := flow :: w.issued }.goto i (.authorize flow))) := by
  have hpass : Ticket.Move 0 (nonceTickets w) _ :=
    .pass (c := i) (i := flow.nonce) (n := 0) (by simp [nonceTickets, hpc, nonceTicket])
  refine ((ReflTransGen.single hpass).tail (.drop i)).tail
    (.lose (fun k hk => hk) (fun k hk => hk) ?_ ?_)
  · rw [nonceTickets_goto]
    exact (Function.update_idem _ _ _).symm
  · funext n
    match n with
    | 0 => rfl
    | _ + 1 => rfl

theorem nonceMoves_of_turn
    {w w' : Auth.World F} {i : Nat} {input : Input}
    (h : Turn svc w i input w') :
    ReflTransGen (Ticket.Move 0) (nonceTickets w) (nonceTickets w') := by
  cases h with
  | draw hpc hnew => exact nonceMoves_draw hpc hnew
  | date hpc => exact nonceMoves_goto w i _ (Or.inl (by rw [hpc]; rfl))
  | issue hpc => exact nonceMoves_issue _ hpc
  | @answer flow r hpc =>
      refine nonceMoves_goto w i _ (Or.inr ?_)
      unfold afterExchange
      split
      · rfl
      · split_ifs <;> rfl
  | name hpc =>
      exact (ReflTransGen.single
        (nonceMoves_drawn w fun _ hk => List.mem_cons_of_mem _ hk)).trans
          (nonceMoves_goto _ i _ (Or.inr rfl))
  | fill hpc => exact nonceMoves_goto w i _ (Or.inr rfl)
  | create hpc => exact nonceMoves_goto { w with sessions := _ } i _ (Or.inr rfl)
  | other pc hempty _ =>
      exact nonceMoves_goto { w with flows := _, urls := _, exchanges := _ } i pc
        (Or.inr (nonceTicket_of_emptyHanded hempty))

end Turns

section Identities

variable {F : Flow.Store} {V : Verifier} {svc : Service}

/-- An ID token that was accepted by now vouches for the identity in the login of the flow. -/
def Identified (V : Verifier) (now : Int) (flow : Flow) (idToken : String) (identity : Identity) :
    Prop :=
  (∃ t ≤ now, Vouches V t idToken flow.nonce identity) ∧
    identity.subject ≠ "" ∧ identity.issuer ≠ ""

theorem Identified.mono
    {now t : Int} {flow : Flow} {idToken : String} {identity : Identity}
    (h : Identified V now flow idToken identity)
    (hle : now ≤ t) :
    Identified V t flow idToken identity := by
  obtain ⟨⟨t₀, ht₀, hvouches⟩, hcomplete⟩ := h
  exact ⟨⟨t₀, ht₀.trans hle, hvouches⟩, hcomplete⟩

/-- The session is that of an identified user, with the ID token among its tokens. -/
def Proved
    (V : Verifier) (svc : Service) (now : Int) (flow : Flow) (session : Session)
    (tokens : TokenSet) : Prop :=
  ∃ identity, Identified V now flow tokens.idToken identity ∧
    session = newSession svc session.createdAt session.id identity

/-- What a call has in hand is identified. -/
def PcIdentified (V : Verifier) (svc : Service) (now : Int) : Pc → Prop
  | .drawSession flow result => Identified V now flow result.tokens.idToken result.identity
  | .readSessionClock flow result _ => Identified V now flow result.tokens.idToken result.identity
  | .putSession flow session tokens => Proved V svc now flow session tokens
  | _ => True

theorem PcIdentified.mono
    {now t : Int} {pc : Pc}
    (h : PcIdentified V svc now pc)
    (hle : now ≤ t) :
    PcIdentified V svc t pc := by
  cases pc with
  | drawSession flow result => exact Identified.mono h hle
  | readSessionClock flow result sessionID => exact Identified.mono h hle
  | putSession flow session tokens =>
      obtain ⟨identity, hid, hsession⟩ := h
      exact ⟨identity, hid.mono hle, hsession⟩
  | _ => trivial

theorem pcIdentified_of_emptyHanded
    {now : Int} {pc : Pc}
    (h : emptyHanded pc = true) :
    PcIdentified V svc now pc := by
  cases pc <;> trivial

/-- `CompleteCallback` goes on after an exchange only with a complete identity. -/
theorem pcIdentified_afterExchange
    {now : Int} {flow : Flow} {answer : Except Err OAuthToken} :
    PcIdentified V svc now (afterExchange flow (exchange V now flow.nonce answer)) := by
  cases hexchange : exchange V now flow.nonce answer with
  | error e => trivial
  | ok result =>
      unfold afterExchange
      simp only [Bool.or_eq_true, decide_eq_true_eq]
      split_ifs with hincomplete
      · trivial
      · rw [not_or] at hincomplete
        exact ⟨⟨now, le_rfl, vouches_of_exchange hexchange⟩, hincomplete⟩

/-- The invariant of a run. -/
structure Sound (V : Verifier) (svc : Service) (w : World F) : Prop where
  gateway : Auth.Inv svc w.gateway
  nonces : Ticket.Sound 0 (nonceTickets w.gateway)
  calls : ∀ i, PcIdentified V svc w.gateway.now (w.gateway.calls i)
  logins : ∀ l ∈ w.logins, l.flow ∈ w.gateway.issued ∧
    Proved V svc w.gateway.now l.flow l.session l.tokens
  recorded : w.gateway.sessions = w.logins.map Login.record

/-- A step of a call keeps the identities of the calls. -/
theorem calls_of_turn
    {w w' : Auth.World F} {i : Nat} {input : Input}
    (hcalls : ∀ j, PcIdentified V svc w.now (w.calls j))
    (hinput : Computed V w i input)
    (h : Turn svc w i input w') :
    w'.now = w.now ∧ ∀ j, PcIdentified V svc w.now (w'.calls j) := by
  have hgoto {v : Auth.World F} {pc : Pc}
      (hsame : v.calls = w.calls) (hpc : PcIdentified V svc w.now pc) (j : Nat) :
      PcIdentified V svc w.now ((v.goto i pc).calls j) :=
    Run.forall_update (f := w.calls) (i := i) (a := pc)
      (P := fun _ pc => PcIdentified V svc w.now pc)
      (by rw [Auth.World.goto, hsame]) hpc (fun j _ => hcalls j) j
  have hself := hcalls i
  cases h with
  | draw hpc hnew => exact ⟨rfl, hgoto rfl trivial⟩
  | date hpc => exact ⟨rfl, hgoto rfl trivial⟩
  | issue hpc => exact ⟨rfl, hgoto rfl trivial⟩
  | @answer flow r hpc =>
      obtain ⟨flow', answer, hpc', rfl⟩ := hinput r rfl
      rw [hpc] at hpc'
      cases hpc'
      exact ⟨rfl, hgoto rfl pcIdentified_afterExchange⟩
  | name hpc =>
      rw [hpc] at hself
      exact ⟨rfl, hgoto rfl hself⟩
  | @fill flow result sessionID hpc =>
      rw [hpc] at hself
      exact ⟨rfl, hgoto rfl ⟨result.identity, hself, rfl⟩⟩
  | create hpc => exact ⟨rfl, hgoto rfl trivial⟩
  | other pc hempty _ => exact ⟨rfl, hgoto rfl (pcIdentified_of_emptyHanded hempty)⟩

/-- What a step records: the session of a call that was about to create it. -/
theorem created_of_turn
    {w w' : Auth.World F} {i : Nat} {input : Input}
    (h : Turn svc w i input w') :
    (∀ f ∈ w.issued, f ∈ w'.issued) ∧
    (∀ l ∈ created (w.calls i) input, w.calls i = .putSession l.flow l.session l.tokens) ∧
    w'.sessions = (created (w.calls i) input).map Login.record ++ w.sessions := by
  cases h with
  | issue hpc =>
      refine ⟨fun f hf => List.mem_cons_of_mem _ hf, ?_, ?_⟩
      all_goals simp [hpc, created, Auth.World.goto]
  | create hpc =>
      refine ⟨fun f hf => hf, ?_, ?_⟩
      all_goals simp [hpc, created, Auth.World.goto, Login.record]
  | other pc _ hcreated =>
      refine ⟨fun f hf => hf, ?_, ?_⟩
      all_goals simp [hcreated, Auth.World.goto]
  | draw hpc _ | date hpc | answer hpc | name hpc | fill hpc =>
      refine ⟨fun f hf => hf, ?_, ?_⟩
      all_goals simp [hpc, created, Auth.World.goto]

theorem sound_step
    {w w' : World F} {e : Event}
    (h : Sound V svc w)
    (hstep : step V svc w e = some w') :
    Sound V svc w' := by
  rcases step_cases hstep with ⟨i, input, hcall, hlogins, hinput⟩ | ⟨t, hle, rfl⟩
  · have hturn := turn_of_callStep hcall
    obtain ⟨hnow, hcalls⟩ := calls_of_turn h.calls hinput hturn
    obtain ⟨hissued, hcreated, hsessions⟩ := created_of_turn hturn
    refine ⟨Auth.inv_step (e := .call i input) h.gateway hcall,
      h.nonces.of_moves (nonceMoves_of_turn hturn), by rwa [hnow], ?_, ?_⟩
    · intro l hl
      rw [hlogins, List.mem_append] at hl
      rw [hnow]
      rcases hl with hl | hl
      · -- the session is created now, from what the call had in hand
        have hpc := hcreated l hl
        have hgenuine := h.gateway.genuine.calls i
        have hproved := h.calls i
        rw [hpc] at hgenuine hproved
        exact ⟨hissued _ hgenuine.1, hproved⟩
      · obtain ⟨hflow, hproved⟩ := h.logins l hl
        exact ⟨hissued _ hflow, hproved⟩
    · rw [hsessions, hlogins, List.map_append, h.recorded]
  · refine ⟨Auth.inv_step (e := .tick t) h.gateway (by simp [Auth.step, hle]), h.nonces,
      fun i => (h.calls i).mono hle, ?_, h.recorded⟩
    intro l hl
    obtain ⟨hflow, identity, hid, hsession⟩ := h.logins l hl
    exact ⟨hflow, identity, hid.mono hle, hsession⟩

theorem sound_initial
    {flows : F.State} (now : Int)
    (hempty : ∀ k f, ¬ F.holds flows k f) :
    Sound V svc (World.initial now flows) where
  gateway := Auth.inv_initial now hempty
  nonces := by
    refine .of_empty (fun _ => rfl) (fun _ => id) fun m => ?_
    match m with
    | 0 | _ + 1 => rfl
  calls _ := trivial
  logins := by simp [World.initial]
  recorded := rfl

/-- Flows with one nonce are one flow. -/
theorem Sound.flow_eq
    {w : World F} (h : Sound V svc w) {f g : Flow}
    (hf : f ∈ w.gateway.issued) (hg : g ∈ w.gateway.issued)
    (hnonce : f.nonce = g.nonce) :
    f = g :=
  List.inj_on_of_nodup_map (h.nonces.passed_nodup 0) hf hg hnonce

/-- **An ID token logs in once.**  Whatever the token endpoint answers, every session that a
run creates carries the claims of an ID token that was accepted and that bears the nonce of
the session's own login, which no other login has sent to the provider; and no ID token stands
behind two sessions. -/
theorem id_token_logs_in_once
    (V : Verifier) (svc : Service) (F : Flow.Store) (start : Int) (flows : F.State)
    (hempty : ∀ k f, ¬ F.holds flows k f)
    (events : List Event) (w : World F)
    (hrun : Run.exec (step V svc) (World.initial start flows) events = some w) :
    w.gateway.sessions = w.logins.map Login.record ∧
    (w.logins.map fun l => l.tokens.idToken).Nodup ∧
    ∀ l ∈ w.logins, l.flow ∈ w.gateway.issued ∧
      ∃ t ≤ w.gateway.now, ∃ token claims, V.verify t l.tokens.idToken = .ok token ∧
        token.nonce = l.flow.nonce ∧ token.claims = .ok claims ∧
        l.session = newSession svc l.session.createdAt l.session.id claims.identity ∧
        claims.subject ≠ "" ∧ claims.issuer ≠ "" ∧
        ∀ u ∈ w.gateway.urls, u.nonce = token.nonce → u.state = l.flow.state := by
  have hsound : Sound V svc w :=
    Run.exec_invariant (I := Sound V svc) (fun _ _ _ h hstep => sound_step h hstep)
      (sound_initial start hempty) hrun
  refine ⟨hsound.recorded, ?_, ?_⟩
  · -- two logins with one ID token have one nonce, so one flow, so one state
    have hstates := hsound.gateway.states.passed_nodup 2
    simp only [Auth.World.tickets, hsound.recorded, List.map_map] at hstates
    rw [List.Nodup, List.pairwise_map] at hstates ⊢
    refine hstates.imp_of_mem fun {l l'} hl hl' hne heq => hne ?_
    obtain ⟨hflow, _, ⟨⟨_, _, hvouches⟩, _⟩, _⟩ := hsound.logins l hl
    obtain ⟨hflow', _, ⟨⟨_, _, hvouches'⟩, _⟩, _⟩ := hsound.logins l' hl'
    have hnonce : l.flow.nonce = l'.flow.nonce := by
      rw [← hvouches.nonce_eq, ← hvouches'.nonce_eq, heq]
    exact congrArg Flow.state (hsound.flow_eq hflow hflow' hnonce)
  · intro l hl
    obtain ⟨hflow, identity, ⟨⟨t, ht, hvouches⟩, hsubject, hissuer⟩, hsession⟩ :=
      hsound.logins l hl
    obtain ⟨claims, hclaims, rfl⟩ := hvouches.identity_eq
    refine ⟨hflow, t, ht, V.payload l.tokens.idToken, claims, ?_, hvouches.nonce_eq, hclaims,
      hsession, hsubject, hissuer, ?_⟩
    · simp [Verifier.verify, hvouches.accepted, Except.map]
    · intro u hu hnonce
      obtain ⟨f, hf, rfl⟩ := hsound.gateway.genuine.urls u hu
      rw [hsound.flow_eq hf hflow (hnonce.trans hvouches.nonce_eq)]

/-- A verifier that accepts every ID token, whose text is its nonce. -/
def readingVerifier : Verifier where
  payload raw := ⟨raw, 0, .ok ⟨"alice", "idp", "", "", "", []⟩⟩
  accepts _ _ := .ok ()

/-- Two logins; the token endpoint answers the second one with the ID token of the first. -/
def replayedIDToken : List Event :=
  [.call 0 (.login "/app"), .call 0 (.random "s" "n" "v"), .call 0 .ok, .call 0 .ok,
    .call 0 (.url (.ok "https://idp/authorize")),
    .call 1 (.login "/app"), .call 1 (.random "s2" "n2" "v2"), .call 1 .ok, .call 1 .ok,
    .call 1 (.url (.ok "https://idp/authorize")),
    .call 2 (.callback "s" "c"), .call 2 .ok, .call 2 .ok, .call 2 .ok,
    .answer 2 (.ok ⟨"a", "r", 0, some "n", none⟩),
    .call 2 (.randomID "sid"), .call 2 .ok, .call 2 .ok,
    .call 3 (.callback "s2" "c2"), .call 3 .ok, .call 3 .ok, .call 3 .ok,
    .answer 3 (.ok ⟨"a", "r", 0, some "n", none⟩)]

theorem id_token_logs_in_once_replayed :
    ∃ (svc : Service) (w : World Flow.memoryStore),
      Run.exec (step readingVerifier svc) (World.initial 1 Flow.MemoryState.empty)
        replayedIDToken = some w ∧
      w.logins.map (fun l => (l.session.id, l.tokens.idToken)) = [("sid", "n")] ∧
      w.gateway.calls 3 = .callbackDone (.error (.text "oidc nonce mismatch")) ∧
      w.gateway.sessions = w.logins.map Login.record := by
  let svc : Service := ⟨true, true, "https://gw/callback", 0, 0, id⟩
  have hrun : (Run.exec (step readingVerifier svc)
      (World.initial (F := Flow.memoryStore) 1 Flow.MemoryState.empty) replayedIDToken).map
        (fun w => (w.logins.map (fun l => (l.session.id, l.tokens.idToken)), w.gateway.calls 3)) =
      some ([("sid", "n")], .callbackDone (.error (.text "oidc nonce mismatch"))) := rfl
  obtain ⟨w, hw, hend⟩ := Option.map_eq_some_iff.mp hrun
  obtain ⟨hlogins, hcall⟩ := Prod.mk.inj hend
  exact ⟨svc, w, hw, hlogins, hcall, (id_token_logs_in_once readingVerifier svc Flow.memoryStore 1
    Flow.MemoryState.empty (by nofun) replayedIDToken w hw).1⟩

end Identities

end Oidc
end GatewayRuntime
