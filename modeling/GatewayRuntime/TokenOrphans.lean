import GatewayRuntime.AccessToken
import GatewayRuntime.LoginFlow
import GatewayRuntime.StoreExpiry

/-!
# Token sets without a session

`CompleteCallback`, `AccessToken`, `Logout` and `LifecycleStore.Get`, one call after
the other, over one session store behind a `LifecycleStore` and one token store.  The
steps of `AccessToken` and `Logout` are those of `AccessToken.lean`; of
`CompleteCallback` only the part that uses the two stores is modelled.  The stores do
not fail, and time may pass between any two operations.

A `Get` that finds a session idle or over its lifetime removes the session and leaves
its token set behind (`orphan_after_idle`).  A login whose `SessionTTL` is longer than
the maximum lifetime gives the token set a longer life than the session.  Apart from
that a token set is stored only as long as its session (`no_orphan_tokens`).
-/

namespace GatewayRuntime
namespace Orphans

open Expiring (Entry live Pruned Covered)
open Session (Lifecycle)
open Token (TokenSet Outcome Locker LogoutPc LogoutRequest)

section System

/-- The settings of the components. -/
structure Config where
  lifecycle : Lifecycle
  service : Auth.Service
  manager : Token.Manager

/-- The call that is running, and where it stands. -/
inductive Current where
  | idle
  | putSession (session : Session) (tokens : TokenSet)
  | putTokens (session : Session) (tokens : TokenSet)
  | deleteSession (sid : String)
  | access (sid : String) (pc : Token.Pc)
  | logout (sid : String) (request : LogoutRequest) (pc : LogoutPc)

/-- The state: the clock, the stores, the lock, the running call, the session ids drawn so
far and what the `AccessToken` calls have returned. -/
structure State (S : Session.ExpiringStore) (T : Token.ExpiringStore) (L : Locker) where
  now : Int
  sessions : S.State
  tokens : T.State
  lock : L.State
  current : Current
  drawn : List String
  results : List (String × Except Err String)

/-- The events.  A login begins when `CompleteCallback` has drawn the session id. -/
inductive Event where
  | login (sessionID : String) (result : Auth.ExchangeResult)
  | access (sid : String)
  | logout (sid : String) (request : LogoutRequest)
  | get (sid : String)
  | next (o : Outcome)
  | tick (t : Int)

variable {S : Session.ExpiringStore} {T : Token.ExpiringStore} {L : Locker} (cfg : Config)

/-- The state as `AccessToken` and `Logout` see it. -/
def State.world (st : State S T L) (pc : Token.Pc) (logout : LogoutPc) :
    Token.World T.toStore (Session.lifecycleStore cfg.lifecycle S.toStore) L where
  now := st.now
  tokens := st.tokens
  sessions := st.sessions
  lock := st.lock
  calls _ := pc
  logout := logout
  presented := []

/-- The parameters of a call for a session. -/
def Config.setting (sid : String) (request : LogoutRequest) : Token.Setting :=
  ⟨cfg.manager, sid, request⟩

/-- The running `AccessToken` call goes on, or it has returned. -/
def State.accessed (st : State S T L) (sid : String) : Token.Pc → State S T L
  | .done r => { st with current := .idle, results := (sid, r) :: st.results }
  | pc => { st with current := .access sid pc }

/-- The running logout goes on, or it has returned. -/
def State.loggedOut (st : State S T L) (sid : String) (request : LogoutRequest) :
    LogoutPc → State S T L
  | .returned _ => { st with current := .idle }
  | pc => { st with current := .logout sid request pc }

/-- The failure of an operation on a store. -/
def storeFault : Token.Pc → Outcome → Bool
  | .enterLock, _ => false
  | .awaitLock _, _ => false
  | .unlock _ _, _ => false
  | _, .fault _ => true
  | _, _ => false

/-- The next operation of the running call. -/
def next (st : State S T L) (o : Outcome) : Option (State S T L) :=
  match st.current, o with
  | .putSession session tokens, .ok =>
      let r := cfg.lifecycle.put S.toStore st.sessions st.now session
      match r.2 with
      | .error _ => some { st with sessions := r.1, current := .idle }
      | .ok () => some { st with sessions := r.1, current := .putTokens session tokens }
  | .putTokens session tokens, .ok =>
      let r := T.put st.tokens st.now session.id tokens session.expiresAt
      match r.2 with
      | .error _ => some { st with tokens := r.1, current := .deleteSession session.id }
      | .ok () => some { st with tokens := r.1, current := .idle }
  | .deleteSession sid, .ok =>
      some { st with sessions := S.delete st.sessions sid, current := .idle }
  | .access sid pc, o =>
      if storeFault pc o then none
      else
        (Token.callStep (cfg.setting sid ⟨false, ""⟩) (st.world cfg pc .notCalled) 0 o).map fun w =>
          { st with
            tokens := w.tokens
            sessions := w.sessions
            lock := w.lock }.accessed sid (w.calls 0)
  | .logout sid request pc, .ok =>
      (Token.logoutStep (cfg.setting sid request) (st.world cfg .idle pc) .ok).map fun w =>
        { st with
          tokens := w.tokens
          sessions := w.sessions }.loggedOut sid request w.logout
  | .logout sid request pc, .url r =>
      (Token.logoutStep (cfg.setting sid request) (st.world cfg .idle pc) (.url r)).map fun w =>
        { st with
          tokens := w.tokens
          sessions := w.sessions }.loggedOut sid request w.logout
  | _, _ => none

/-- One event.  A call begins when none is running, and no session id is drawn twice. -/
def step (st : State S T L) : Event → Option (State S T L)
  | .login sessionID result =>
      match st.current with
      | .idle =>
          if sessionID ∉ st.drawn ∧ result.identity.subject ≠ "" ∧ result.identity.issuer ≠ "" then
            some { st with
              current := .putSession (Auth.newSession cfg.service st.now sessionID result.identity)
                (Auth.newTokens result)
              drawn := sessionID :: st.drawn }
          else none
      | _ => none
  | .access sid =>
      match st.current with
      | .idle => some (st.accessed sid (Token.entry (cfg.setting sid ⟨false, ""⟩)))
      | _ => none
  | .logout sid request =>
      match st.current with
      | .idle => some { st with current := .logout sid request .notCalled }
      | _ => none
  | .get sid =>
      match st.current with
      | .idle =>
          some { st with sessions := (cfg.lifecycle.get S.toStore st.sessions st.now sid).1 }
      | _ => none
  | .next o => next cfg st o
  | .tick t => if st.now ≤ t then some { st with now := t } else none

/-- A `Get` removes a session only when no token set of it is left. -/
def removesNoOrphan (st : State S T L) (sid : String) : Bool :=
  match (S.get st.sessions st.now sid).2 with
  | .error _ => true
  | .ok v =>
      match cfg.lifecycle.check st.now v with
      | .expired => (T.value st.tokens st.now sid).isNone
      | _ => true

/-- The condition on an event: a `Get` removes no session of which a token set is left, the
session of a login keeps the expiry that its token set gets, and entries end when they
should. -/
def spares (st : State S T L) : Event → Bool
  | .get sid =>
      removesNoOrphan cfg st sid && cfg.lifecycle.touchesExactly S st.sessions st.now sid
  | .next _ =>
      match st.current with
      | .putSession session _ =>
          decide ((cfg.lifecycle.prepare st.now session).expiresAt = session.expiresAt) &&
            S.exact st.now session.expiresAt
      | .putTokens session _ => T.exact st.now session.expiresAt
      | .access sid (.expiry _ _) => cfg.lifecycle.touchesExactly S st.sessions st.now sid
      | .access _ (.persist _ _ expiresAt) => T.exact st.now expiresAt
      | _ => true
  | _ => true

end System

section Invariant

variable {S : Session.ExpiringStore} {T : Token.ExpiringStore} {L : Locker} {cfg : Config}

/-- The session whose token set the running call is about to delete. -/
def Current.dropping : Current → Option String
  | .access sid (.dropTokens _ _) => some sid
  | _ => none

/-- What holds for a session id: the session ends at its expiry, its token set ends with it,
and the id has been drawn. -/
structure Sound (st : State S T L) (k : String) : Prop where
  exact : ∀ {v d}, S.entry st.sessions k = some (v, d) → d = expiryOf v.expiresAt
  covered : st.current.dropping ≠ some k →
    Covered st.now (T.entry st.tokens k) (S.entry st.sessions k)
  token_drawn : T.entry st.tokens k ≠ none → k ∈ st.drawn
  session_drawn : S.entry st.sessions k ≠ none → k ∈ st.drawn

/-- What the place of the running call says about the stores. -/
def Current.Ready (st : State S T L) : Current → Prop
  | .putSession session _ => session.id ∈ st.drawn ∧ T.entry st.tokens session.id = none
  | .putTokens session _ => T.entry st.tokens session.id = none ∧
      ∃ v, S.entry st.sessions session.id = some (v, expiryOf session.expiresAt)
  | .deleteSession sid => T.entry st.tokens sid = none
  | .access sid (.persist _ _ expiresAt) =>
      ∃ v, S.entry st.sessions sid = some (v, expiryOf expiresAt)
  | .access sid (.dropSession _ _) => T.entry st.tokens sid = none
  | .logout sid _ (.deleteSession _) => T.entry st.tokens sid = none
  | _ => True

/-- The invariant. -/
structure Inv (st : State S T L) : Prop where
  sound : ∀ k, Sound st k
  ready : st.current.Ready st

/-- A session id that an event does not touch. -/
theorem Sound.frame
    {st st' : State S T L} {k : String}
    (h : Sound st k)
    (hnow : st'.now = st.now)
    (hdropping : st.current.dropping ≠ some k)
    (hdrawn : ∀ {x}, x ∈ st.drawn → x ∈ st'.drawn)
    (htokens : Pruned st.now (T.entry st.tokens k) (T.entry st'.tokens k))
    (hsessions : Pruned st.now (S.entry st.sessions k) (S.entry st'.sessions k)) :
    Sound st' k where
  exact he := h.exact (hsessions.eq_of_some he)
  covered _ := by
    rw [hnow]
    exact ((h.covered hdropping).pruned_left htokens).pruned_right hsessions
  token_drawn hne := by
    obtain ⟨x, hx⟩ := Option.ne_none_iff_exists'.mp hne
    exact hdrawn (h.token_drawn (by simp [htokens.eq_of_some hx]))
  session_drawn hne := by
    obtain ⟨x, hx⟩ := Option.ne_none_iff_exists'.mp hne
    exact hdrawn (h.session_drawn (by simp [hsessions.eq_of_some hx]))

/-- The session is written back with a new `LastSeen`. -/
theorem Sound.touched
    {st st' : State S T L} {k : String} {v : Session}
    (h : Sound st k)
    (hdropping : st.current.dropping ≠ some k)
    (hlive : live st.now (S.entry st.sessions k) = some v)
    (hafter : S.entry st'.sessions k =
      some ({ v with lastSeen := st.now }, expiryOf v.expiresAt))
    (hnow : st'.now = st.now)
    (htokens : st'.tokens = st.tokens)
    (hdrawn : st'.drawn = st.drawn) :
    Sound st' k := by
  obtain ⟨d, hbefore, -⟩ := Expiring.live_eq_some.mp hlive
  rw [h.exact hbefore] at hbefore
  refine ⟨?_, ?_, ?_, ?_⟩
  · intro v' d' hv
    cases hafter.symm.trans hv
    rfl
  · intro _
    rw [hnow, htokens, hafter]
    exact (h.covered hdropping).replace_right hbefore _
  · rw [htokens, hdrawn]
    exact h.token_drawn
  · intro _
    rw [hdrawn]
    exact h.session_drawn (by simp [hbefore])

/-- All session ids but one are left alone. -/
theorem sound_of_others
    {st st' : State S T L} {sid : String}
    (h : ∀ k, Sound st k)
    (hnow : st'.now = st.now)
    (hdropping : ∀ k, k ≠ sid → st.current.dropping ≠ some k)
    (hdrawn : ∀ {x}, x ∈ st.drawn → x ∈ st'.drawn)
    (htokens : ∀ k, k ≠ sid → Pruned st.now (T.entry st.tokens k) (T.entry st'.tokens k))
    (hsessions : ∀ k, k ≠ sid → Pruned st.now (S.entry st.sessions k) (S.entry st'.sessions k))
    (hsid : Sound st' sid) (k : String) :
    Sound st' k := by
  by_cases hk : k = sid
  · rw [hk]
    exact hsid
  · exact (h k).frame hnow (hdropping k hk) hdrawn (htokens k hk) (hsessions k hk)

/-- The entry of one session id is replaced. -/
theorem pruned_update
    {α : Type} (e : String → Entry Int α) (now : Int) (x : Entry Int α)
    {k sid : String} (hk : k ≠ sid) :
    Pruned now (e k) (Function.update e sid x k) := by
  rw [Function.update_of_ne hk]
  exact .refl _ _

end Invariant

section Access

variable {S : Session.ExpiringStore} {T : Token.ExpiringStore} {L : Locker} {cfg : Config}

/-- A place of an `AccessToken` call that says nothing about the stores. -/
def plain : Token.Pc → Bool
  | .persist _ _ _ => false
  | .dropTokens _ _ => false
  | .dropSession _ _ => false
  | _ => true

@[simp] theorem plain_leave (h : Option Nat) (result : Except Err String) :
    plain (Token.leave h result) = true := by
  cases h <;> rfl

/-- What a step of an `AccessToken` call for `sid` does to the stores. -/
inductive AccessEffect (cfg : Config) (st : State S T L) (sid : String) (pc : Token.Pc) :
    T.State → S.State → Token.Pc → Prop
  | read
      {pc' : Token.Pc}
      (hpc : plain pc = true)
      (hplain : plain pc' = true) :
      AccessEffect cfg st sid pc (T.get st.tokens st.now sid).1 st.sessions pc'
  | skip
      {pc' : Token.Pc}
      (hpc : plain pc = true)
      (hplain : plain pc' = true ∨ ∃ k err, pc' = .dropTokens k err) :
      AccessEffect cfg st sid pc st.tokens st.sessions pc'
  | expiry
      {k : Option Nat} {fresh : TokenSet}
      (hpc : pc = .expiry k fresh) :
      AccessEffect cfg st sid pc st.tokens
        (cfg.lifecycle.get S.toStore st.sessions st.now sid).1
        (Token.afterExpiry k fresh (cfg.lifecycle.get S.toStore st.sessions st.now sid).2)
  | persist
      {k : Option Nat} {fresh : TokenSet} {expiresAt : Int}
      (hpc : pc = .persist k fresh expiresAt) :
      AccessEffect cfg st sid pc (T.put st.tokens st.now sid fresh expiresAt).1 st.sessions
        (Token.afterPersist k fresh (T.put st.tokens st.now sid fresh expiresAt).2)
  | dropTokens
      {k : Option Nat} {err : Err}
      (hpc : pc = .dropTokens k err) :
      AccessEffect cfg st sid pc (T.delete st.tokens sid) st.sessions
        (Token.afterDropTokens cfg.manager k err)
  | dropSession
      {k : Option Nat} {err : Err}
      (hpc : pc = .dropSession k err) :
      AccessEffect cfg st sid pc st.tokens (S.delete st.sessions sid)
        (Token.leave k (.error err))

theorem accessEffect_of_callStep
    {st : State S T L} {sid : String} {request : LogoutRequest} {pc : Token.Pc} {o : Outcome}
    {w : Token.World T.toStore (Session.lifecycleStore cfg.lifecycle S.toStore) L}
    (hfault : storeFault pc o = false)
    (h : Token.callStep (cfg.setting sid request) (st.world cfg pc .notCalled) 0 o = some w) :
    AccessEffect cfg st sid pc w.tokens w.sessions (w.calls 0) := by
  have heffect : Token.CallEffect (cfg.setting sid request) (st.world cfg pc .notCalled) 0 pc o w :=
    Token.callStep_effect h
  clear h
  generalize hworld : st.world cfg pc .notCalled = before at heffect
  cases heffect with
  | firstGet =>
      subst hworld
      refine .read rfl ?_
      rw [Token.goto_calls_self]
      unfold Token.afterFirstGet
      split <;> rfl
  | firstGetFault | rereadFault | expiryFault | persistFault | dropTokensFault
  | dropSessionFault =>
      simp [storeFault] at hfault
  | firstCheck =>
      subst hworld
      refine .skip rfl (Or.inl ?_)
      rw [Token.goto_calls_self]
      unfold Token.afterFirstCheck
      split_ifs <;> rfl
  | enter | enterFault | acquire | acquireFault | refresh | release | abandon =>
      subst hworld
      exact .skip rfl (Or.inl (by rw [Token.goto_calls_self]; rfl))
  | reread =>
      subst hworld
      refine .read rfl ?_
      rw [Token.goto_calls_self]
      unfold Token.afterReread
      split
      · simp
      · rfl
  | secondCheck =>
      subst hworld
      refine .skip rfl (Or.inl ?_)
      rw [Token.goto_calls_self]
      unfold Token.afterSecondCheck
      split_ifs
      · simp
      · simp
      · rfl
  | @answer k cur r =>
      subst hworld
      refine .skip rfl ?_
      rw [Token.goto_calls_self]
      cases r with
      | error e => exact Or.inr ⟨_, _, rfl⟩
      | ok answer => exact Or.inl rfl
  | answerCheck =>
      subst hworld
      refine .skip rfl ?_
      rw [Token.goto_calls_self]
      unfold Token.afterAnswerCheck
      split_ifs
      · exact Or.inr ⟨_, _, rfl⟩
      · exact Or.inl rfl
  | expiry =>
      subst hworld
      rw [Token.goto_calls_self]
      exact .expiry rfl
  | noSessions =>
      subst hworld
      exact .skip rfl (Or.inr ⟨_, _, Token.goto_calls_self _ _ _⟩)
  | persist =>
      subst hworld
      rw [Token.goto_calls_self]
      exact .persist rfl
  | dropTokens =>
      subst hworld
      rw [Token.goto_calls_self]
      exact .dropTokens rfl
  | dropSession =>
      subst hworld
      rw [Token.goto_calls_self]
      exact .dropSession rfl

/-- The state in which the running call for `sid` stands at `pc`. -/
def State.at (st : State S T L) (sid : String) (pc : Token.Pc) (tokens : T.State)
    (sessions : S.State) : State S T L :=
  { st with tokens := tokens, sessions := sessions, current := .access sid pc }

theorem dropping_of_plain
    {pc : Token.Pc} (h : plain pc = true) (sid k : String) :
    (Current.access sid pc).dropping ≠ some k := by
  cases pc <;> first | (intro hk; cases hk; done) | cases h

theorem ready_of_plain
    {pc : Token.Pc} (h : plain pc = true) (st : State S T L) (sid : String) :
    (Current.access sid pc).Ready st := by
  cases pc <;> trivial

theorem dropping_of_ne
    {pc : Token.Pc} {sid k : String} (hk : k ≠ sid) :
    (Current.access sid pc).dropping ≠ some k := by
  intro h
  cases pc <;> cases h
  exact hk rfl

variable {st : State S T L} {sid : String}

/-- `Sessions.Get` in `sessionExpiry`. -/
theorem inv_expiry
    {k : Option Nat} {fresh : TokenSet}
    (h : Inv st)
    (hcurrent : st.current = .access sid (.expiry k fresh))
    (hexact : cfg.lifecycle.touchesExactly S st.sessions st.now sid = true) :
    Inv (st.at sid
      (Token.afterExpiry k fresh (cfg.lifecycle.get S.toStore st.sessions st.now sid).2) st.tokens
      (cfg.lifecycle.get S.toStore st.sessions st.now sid).1) := by
  obtain ⟨heffect, hothers⟩ := Lifecycle.getEffect hexact
  have hsid := h.sound sid
  have hfree : ∀ j, st.current.dropping ≠ some j := by
    rw [hcurrent]
    nofun
  generalize cfg.lifecycle.get S.toStore st.sessions st.now sid = r at heffect hothers ⊢
  obtain ⟨sessions, result⟩ := r
  cases heffect with
  | kept hpruned hresult =>
      refine ⟨sound_of_others h.sound rfl (fun j _ => hfree j) id (fun _ _ => .refl _ _) hothers
        (hsid.frame rfl (hfree sid) id (.refl _ _) hpruned), ?_⟩
      cases result with
      | error e => trivial
      | ok v =>
          have hlive := hresult v rfl
          obtain ⟨d, hbefore, -⟩ := Expiring.live_eq_some.mp hlive
          refine ⟨v, ?_⟩
          rw [← hsid.exact hbefore, ← hbefore]
          exact hpruned.eq_of_live hlive
  | removed hlive hexpired hafter =>
      refine ⟨sound_of_others h.sound rfl (fun j _ => hfree j) id (fun _ _ => .refl _ _) hothers
        ⟨?_, ?_, hsid.token_drawn, ?_⟩, trivial⟩
      · intro v d hv
        cases hafter.symm.trans hv
      · intro hne
        exact absurd rfl hne
      · intro hne
        exact absurd hafter hne
  | touched hlive hafter =>
      refine ⟨sound_of_others h.sound rfl (fun j _ => hfree j) id (fun _ _ => .refl _ _) hothers
        (hsid.touched (hfree sid) hlive hafter rfl rfl rfl), ⟨_, hafter⟩⟩

/-- A token set is written that ends with the session. -/
theorem sound_putTokens
    {st' : State S T L} {x : TokenSet} {expiresAt : Int} {v : Session}
    (h : ∀ k, Sound st k)
    (hdropping : ∀ k, k ≠ sid → st.current.dropping ≠ some k)
    (hok : (T.put st.tokens st.now sid x expiresAt).2 = .ok ())
    (hexact : T.exact st.now expiresAt = true)
    (hsession : S.entry st.sessions sid = some (v, expiryOf expiresAt))
    (hnow : st'.now = st.now)
    (hdrawn : st'.drawn = st.drawn)
    (htokens : st'.tokens = (T.put st.tokens st.now sid x expiresAt).1)
    (hsessions : st'.sessions = st.sessions) :
    ∀ k, Sound st' k := by
  have hentry := T.entry_put_ok hok hexact
  rw [← htokens] at hentry
  have hwritten : T.entry st'.tokens sid = some (x, expiryOf expiresAt) := by
    rw [hentry, Function.update_self]
  refine sound_of_others h hnow hdropping (fun hx => hdrawn ▸ hx) (fun j hj => ?_) (fun j _ => ?_)
    ⟨?_, ?_, ?_, ?_⟩
  · rw [hentry]
    exact pruned_update _ _ _ hj
  · rw [hsessions]
    exact .refl _ _
  · rw [hsessions]
    exact (h sid).exact
  · intro _ y d hy _
    cases hwritten.symm.trans hy
    rw [hsessions]
    exact ⟨v, _, hsession, le_rfl⟩
  · intro _
    rw [hdrawn]
    exact (h sid).session_drawn (by simp [hsession])
  · rw [hsessions, hdrawn]
    exact (h sid).session_drawn

/-- The token set of a session is deleted. -/
theorem sound_deleteTokens
    {st' : State S T L}
    (h : ∀ k, Sound st k)
    (hdropping : ∀ k, k ≠ sid → st.current.dropping ≠ some k)
    (hnow : st'.now = st.now)
    (hdrawn : st'.drawn = st.drawn)
    (htokens : st'.tokens = T.delete st.tokens sid)
    (hsessions : st'.sessions = st.sessions) :
    ∀ k, Sound st' k := by
  have hgone : T.entry st'.tokens sid = none := by
    rw [htokens, T.entry_delete, Function.update_self]
  refine sound_of_others h hnow hdropping (fun hx => hdrawn ▸ hx) (fun j hj => ?_) (fun j _ => ?_)
    ⟨?_, fun _ => .of_not_live ?_, fun hne => absurd hgone hne, ?_⟩
  · rw [htokens, T.entry_delete]
    exact pruned_update _ _ _ hj
  · rw [hsessions]
    exact .refl _ _
  · rw [hsessions]
    exact (h sid).exact
  · rw [hgone]
    rfl
  · rw [hsessions, hdrawn]
    exact (h sid).session_drawn

/-- `Sessions.Delete`, when the token set is gone. -/
theorem sound_deleteSession
    {st' : State S T L}
    (h : ∀ k, Sound st k)
    (hgone : T.entry st.tokens sid = none)
    (hdropping : ∀ k, k ≠ sid → st.current.dropping ≠ some k)
    (hnow : st'.now = st.now)
    (hdrawn : st'.drawn = st.drawn)
    (htokens : st'.tokens = st.tokens)
    (hsessions : st'.sessions = S.delete st.sessions sid) :
    ∀ k, Sound st' k := by
  have hremoved : S.entry st'.sessions sid = none := by
    rw [hsessions, S.entry_delete, Function.update_self]
  refine sound_of_others h hnow hdropping (fun hx => hdrawn ▸ hx) (fun j hj => ?_) (fun j hj => ?_)
    ⟨?_, ?_, ?_, fun hne => absurd hremoved hne⟩
  · rw [htokens]
    exact .refl _ _
  · rw [hsessions, S.entry_delete]
    exact pruned_update _ _ _ hj
  · intro v d hv
    rw [hremoved] at hv
    cases hv
  · intro _
    rw [htokens, hgone]
    exact .of_not_live rfl
  · intro hne
    rw [htokens] at hne
    exact absurd hgone hne

/-- `Store.Put` of a refreshed set. -/
theorem inv_persist
    {k : Option Nat} {fresh : TokenSet} {expiresAt : Int}
    (h : Inv st)
    (hcurrent : st.current = .access sid (.persist k fresh expiresAt))
    (hexact : T.exact st.now expiresAt = true) :
    Inv (st.at sid (Token.afterPersist k fresh (T.put st.tokens st.now sid fresh expiresAt).2)
      (T.put st.tokens st.now sid fresh expiresAt).1 st.sessions) := by
  have hfree : ∀ j, st.current.dropping ≠ some j := by
    rw [hcurrent]
    nofun
  have hready := h.ready
  rw [hcurrent] at hready
  obtain ⟨v, hv⟩ := hready
  have hplain : plain
      (Token.afterPersist k fresh (T.put st.tokens st.now sid fresh expiresAt).2) = true := by
    unfold Token.afterPersist
    split <;> simp
  refine ⟨?_, ready_of_plain hplain _ _⟩
  cases hput : (T.put st.tokens st.now sid fresh expiresAt).2 with
  | error e =>
      intro j
      refine (h.sound j).frame rfl (hfree j) id ?_ (.refl _ _)
      simp only [State.at, T.put_error hput]
      exact .refl _ _
  | ok u =>
      exact sound_putTokens h.sound (fun j _ => hfree j) hput hexact hv rfl rfl rfl rfl

/-- `Store.Delete` of `invalidate`. -/
theorem inv_dropTokens
    {k : Option Nat} {err : Err}
    (h : Inv st)
    (hcurrent : st.current = .access sid (.dropTokens k err)) :
    Inv (st.at sid (Token.afterDropTokens cfg.manager k err) (T.delete st.tokens sid)
      st.sessions) := by
  refine ⟨sound_deleteTokens h.sound (fun j hj => ?_) rfl rfl rfl rfl, ?_⟩
  · rw [hcurrent]
    exact dropping_of_ne hj
  · show (Current.access sid (Token.afterDropTokens cfg.manager k err)).Ready _
    unfold Token.afterDropTokens
    split_ifs
    · show T.entry (T.delete st.tokens sid) sid = none
      rw [T.entry_delete, Function.update_self]
    · exact ready_of_plain (plain_leave _ _) _ _

/-- **One step of an `AccessToken` call.** -/
theorem inv_access
    {pc pc' : Token.Pc} {tokens : T.State} {sessions : S.State}
    (h : Inv st)
    (hcurrent : st.current = .access sid pc)
    (o : Outcome)
    (hguard : spares cfg st (.next o) = true)
    (heffect : AccessEffect cfg st sid pc tokens sessions pc') :
    Inv (st.at sid pc' tokens sessions) := by
  cases heffect with
  | read hpc hplain =>
      refine ⟨fun k => (h.sound k).frame rfl ?_ id (T.entry_get _ _ _ _) (.refl _ _),
        ready_of_plain hplain _ _⟩
      rw [hcurrent]
      exact dropping_of_plain hpc _ _
  | skip hpc hplain =>
      refine ⟨fun k => (h.sound k).frame rfl ?_ id (.refl _ _) (.refl _ _), ?_⟩
      · rw [hcurrent]
        exact dropping_of_plain hpc _ _
      · rcases hplain with hplain | ⟨k, err, rfl⟩
        · exact ready_of_plain hplain _ _
        · trivial
  | expiry hpc =>
      subst hpc
      exact inv_expiry h hcurrent (by simpa [spares, hcurrent] using hguard)
  | persist hpc =>
      subst hpc
      exact inv_persist h hcurrent (by simpa [spares, hcurrent] using hguard)
  | dropTokens hpc =>
      subst hpc
      exact inv_dropTokens h hcurrent
  | dropSession hpc =>
      subst hpc
      have hgone := h.ready
      rw [hcurrent] at hgone
      refine ⟨sound_deleteSession h.sound hgone (fun j hj => ?_) rfl rfl rfl rfl,
        ready_of_plain (plain_leave _ _) _ _⟩
      rw [hcurrent]
      exact dropping_of_ne hj

/-- An `AccessToken` call that has returned leaves the stores as they are. -/
theorem inv_accessed
    {pc : Token.Pc} {tokens : T.State} {sessions : S.State} {lock : L.State}
    (h : Inv (st.at sid pc tokens sessions)) :
    Inv ({ st with tokens := tokens, sessions := sessions, lock := lock }.accessed sid pc) := by
  have hsame (k : String) := h.sound k
  cases pc with
  | done r =>
      exact ⟨fun k => ⟨(hsame k).exact, fun _ => (hsame k).covered nofun, (hsame k).token_drawn,
        (hsame k).session_drawn⟩, trivial⟩
  | _ =>
      exact ⟨fun k => ⟨(hsame k).exact, (hsame k).covered, (hsame k).token_drawn,
        (hsame k).session_drawn⟩, h.ready⟩

end Access

section Steps

variable {S : Session.ExpiringStore} {T : Token.ExpiringStore} {L : Locker} {cfg : Config}
  {st st' : State S T L}

/-- A logout that has returned leaves the stores as they are. -/
theorem inv_loggedOut
    {sid : String} {request : LogoutRequest} {pc : LogoutPc}
    (h : Inv { st with current := .logout sid request pc }) :
    Inv (st.loggedOut sid request pc) := by
  have hsame (k : String) := h.sound k
  cases pc with
  | returned r =>
      exact ⟨fun k => ⟨(hsame k).exact, fun _ => (hsame k).covered nofun, (hsame k).token_drawn,
        (hsame k).session_drawn⟩, trivial⟩
  | _ =>
      exact h

/-- **One step of a logout.** -/
theorem inv_logout
    {sid : String} {request : LogoutRequest} {pc : LogoutPc} {o : Outcome}
    {w : Token.World T.toStore (Session.lifecycleStore cfg.lifecycle S.toStore) L}
    (h : Inv st)
    (hcurrent : st.current = .logout sid request pc)
    (hstep : Token.logoutStep (cfg.setting sid request) (st.world cfg .idle pc) o = some w) :
    Inv ({ st with tokens := w.tokens, sessions := w.sessions }.loggedOut sid request w.logout) := by
  apply inv_loggedOut
  have hfree : ∀ k, st.current.dropping ≠ some k := by
    rw [hcurrent]
    nofun
  have hload (r : Except Err TokenSet) (st' : State S T L) :
      (Current.logout sid request (Token.afterLoad r)).Ready st' := by
    unfold Token.afterLoad
    split
    · trivial
    · split_ifs <;> trivial
  cases Token.logoutStep_effect hstep with
  | skip _ | start | endSession _ | fail =>
      exact ⟨fun k => (h.sound k).frame rfl (hfree k) id (.refl _ _) (.refl _ _), trivial⟩
  | @loadFault e =>
      exact ⟨fun k => (h.sound k).frame rfl (hfree k) id (.refl _ _) (.refl _ _),
        hload (.error e) _⟩
  | load =>
      exact ⟨fun k => (h.sound k).frame rfl (hfree k) id (T.entry_get _ _ _ _) (.refl _ _),
        hload _ _⟩
  | deleteTokens =>
      have hgone : T.entry (T.delete st.tokens sid) sid = none := by
        rw [T.entry_delete, Function.update_self]
      exact ⟨sound_deleteTokens h.sound (fun k _ => hfree k) rfl rfl rfl rfl, hgone⟩
  | @deleteSession idToken hpc =>
      obtain rfl : pc = .deleteSession idToken := hpc
      have hgone := h.ready
      rw [hcurrent] at hgone
      refine ⟨sound_deleteSession h.sound hgone (fun k _ => hfree k) rfl rfl rfl rfl, ?_⟩
      simp only [Token.afterSessionDeleted]
      split_ifs <;> trivial

/-- `Sessions.Put` of a login that is not capped. -/
theorem entry_putSession
    {session : Session}
    (hguard : (cfg.lifecycle.prepare st.now session).expiresAt = session.expiresAt ∧
      S.exact st.now session.expiresAt = true)
    (hok : (cfg.lifecycle.put S.toStore st.sessions st.now session).2 = .ok ()) :
    S.entry (cfg.lifecycle.put S.toStore st.sessions st.now session).1 =
      Function.update (S.entry st.sessions) session.id
        (some (cfg.lifecycle.prepare st.now session, expiryOf session.expiresAt)) := by
  rw [← hguard.1]
  exact S.put_ok hok (by rw [hguard.1]; exact hguard.2)

/-- `Sessions.Put` of a login. -/
theorem inv_putSession
    {session : Session} {tokens : TokenSet} {current : Current}
    (h : Inv st)
    (hcurrent : st.current = .putSession session tokens)
    (hguard : (cfg.lifecycle.prepare st.now session).expiresAt = session.expiresAt ∧
      S.exact st.now session.expiresAt = true)
    (hresult : (cfg.lifecycle.put S.toStore st.sessions st.now session).2 = .ok () ∧
        current = .putTokens session tokens ∨
      (∃ e, (cfg.lifecycle.put S.toStore st.sessions st.now session).2 = .error e) ∧
        current = .idle) :
    Inv { st with
      sessions := (cfg.lifecycle.put S.toStore st.sessions st.now session).1
      current := current } := by
  have hfree : ∀ k, st.current.dropping ≠ some k := by
    rw [hcurrent]
    nofun
  have hready := h.ready
  rw [hcurrent] at hready
  obtain ⟨hdrawn, hgone⟩ := hready
  rcases hresult with ⟨hok, rfl⟩ | ⟨⟨e, herr⟩, rfl⟩
  · have hentry := entry_putSession hguard hok
    have hwritten : S.entry (cfg.lifecycle.put S.toStore st.sessions st.now session).1 session.id =
        some (cfg.lifecycle.prepare st.now session, expiryOf session.expiresAt) := by
      rw [hentry, Function.update_self]
    refine ⟨sound_of_others h.sound rfl (fun k _ => hfree k) id (fun _ _ => .refl _ _)
      (fun k hk => ?_) ⟨?_, ?_, (h.sound session.id).token_drawn, fun _ => hdrawn⟩,
      hgone, _, hwritten⟩
    · simp only [hentry]
      exact pruned_update _ _ _ hk
    · intro v d hv
      cases hwritten.symm.trans hv
      rw [hguard.1]
    · intro _
      simp only [hgone]
      exact .of_not_live rfl
  · have hsame : (cfg.lifecycle.put S.toStore st.sessions st.now session).1 = st.sessions :=
      S.put_error herr
    refine ⟨fun k => (h.sound k).frame rfl (hfree k) id (.refl _ _) ?_, trivial⟩
    simp only [hsame]
    exact .refl _ _

/-- `Tokens.Put` of a login. -/
theorem inv_putTokens
    {session : Session} {tokens : TokenSet} {current : Current}
    (h : Inv st)
    (hcurrent : st.current = .putTokens session tokens)
    (hexact : T.exact st.now session.expiresAt = true)
    (hresult : (T.put st.tokens st.now session.id tokens session.expiresAt).2 = .ok () ∧
        current = .idle ∨
      (∃ e, (T.put st.tokens st.now session.id tokens session.expiresAt).2 = .error e) ∧
        current = .deleteSession session.id) :
    Inv { st with
      tokens := (T.put st.tokens st.now session.id tokens session.expiresAt).1
      current := current } := by
  have hfree : ∀ k, st.current.dropping ≠ some k := by
    rw [hcurrent]
    nofun
  have hready := h.ready
  rw [hcurrent] at hready
  obtain ⟨hgone, v, hv⟩ := hready
  rcases hresult with ⟨hok, rfl⟩ | ⟨⟨e, herr⟩, rfl⟩
  · exact ⟨sound_putTokens h.sound (fun k _ => hfree k) hok hexact hv rfl rfl rfl rfl, trivial⟩
  · have hsame := T.put_error herr
    refine ⟨fun k => (h.sound k).frame rfl (hfree k) id ?_ (.refl _ _), ?_⟩
    · simp only [hsame]
      exact .refl _ _
    · simp only [Current.Ready, hsame]
      exact hgone

/-- A `Get` that removes no session of which a token set is left. -/
theorem inv_get
    {sid : String}
    (h : Inv st)
    (hcurrent : st.current = .idle)
    (hguard : spares cfg st (.get sid) = true) :
    Inv { st with sessions := (cfg.lifecycle.get S.toStore st.sessions st.now sid).1 } := by
  simp only [spares, Bool.and_eq_true] at hguard
  obtain ⟨hremoves, hexact⟩ := hguard
  obtain ⟨heffect, hothers⟩ := Lifecycle.getEffect hexact
  have hsid := h.sound sid
  have hfree : ∀ j, st.current.dropping ≠ some j := by
    rw [hcurrent]
    nofun
  refine ⟨sound_of_others h.sound rfl (fun j _ => hfree j) id (fun _ _ => .refl _ _) hothers ?_, ?_⟩
  · generalize cfg.lifecycle.get S.toStore st.sessions st.now sid = r at heffect ⊢
    obtain ⟨sessions, result⟩ := r
    cases heffect with
    | kept hpruned hresult =>
        exact hsid.frame rfl (hfree sid) id (.refl _ _) hpruned
    | removed hlive hexpired hafter =>
        refine ⟨?_, fun _ => .of_not_live ?_, hsid.token_drawn, fun hne => absurd hafter hne⟩
        · intro v d hv
          cases hafter.symm.trans hv
        · rw [← T.value_eq]
          simpa [removesNoOrphan, S.get_ok_iff.mpr hlive, hexpired] using hremoves
    | touched hlive hafter =>
        exact hsid.touched (hfree sid) hlive hafter rfl rfl rfl
  · rw [hcurrent]
    trivial

/-- **One operation of the running call.** -/
theorem inv_next
    {o : Outcome}
    (h : Inv st)
    (hguard : spares cfg st (.next o) = true)
    (hstep : next cfg st o = some st') :
    Inv st' := by
  unfold next at hstep
  split at hstep
  · rename_i session tokens hcurrent
    have hguard' : (cfg.lifecycle.prepare st.now session).expiresAt = session.expiresAt ∧
        S.exact st.now session.expiresAt = true := by
      simpa [spares, hcurrent] using hguard
    simp only at hstep
    split at hstep <;> cases hstep
    · rename_i e herr
      exact inv_putSession h hcurrent hguard' (Or.inr ⟨⟨e, herr⟩, rfl⟩)
    · rename_i hok
      exact inv_putSession h hcurrent hguard' (Or.inl ⟨hok, rfl⟩)
  · rename_i session tokens hcurrent
    have hexact : T.exact st.now session.expiresAt = true := by
      simpa [spares, hcurrent] using hguard
    simp only at hstep
    split at hstep <;> cases hstep
    · rename_i e herr
      exact inv_putTokens h hcurrent hexact (Or.inr ⟨⟨e, herr⟩, rfl⟩)
    · rename_i hok
      exact inv_putTokens h hcurrent hexact (Or.inl ⟨hok, rfl⟩)
  · rename_i sid hcurrent
    cases hstep
    have hgone := h.ready
    rw [hcurrent] at hgone
    refine ⟨sound_deleteSession h.sound hgone (fun k _ => ?_) rfl rfl rfl rfl, trivial⟩
    rw [hcurrent]
    nofun
  · rename_i sid pc hcurrent
    split_ifs at hstep with hfault
    simp only [Option.map_eq_some_iff] at hstep
    obtain ⟨w, hw, rfl⟩ := hstep
    exact inv_accessed (inv_access h hcurrent _ hguard
      (accessEffect_of_callStep (by simpa using hfault) hw))
  · rename_i sid request pc hcurrent
    simp only [Option.map_eq_some_iff] at hstep
    obtain ⟨w, hw, rfl⟩ := hstep
    exact inv_logout h hcurrent hw
  · rename_i sid request pc r hcurrent
    simp only [Option.map_eq_some_iff] at hstep
    obtain ⟨w, hw, rfl⟩ := hstep
    exact inv_logout h hcurrent hw
  · cases hstep

/-- A call begins: the stores do not change. -/
theorem Inv.begin
    {current : Current}
    (h : Inv st)
    (hidle : st.current = .idle)
    (hcurrent : current.Ready { st with current := current }) :
    Inv { st with current := current } := by
  refine ⟨fun k => (h.sound k).frame rfl ?_ id (.refl _ _) (.refl _ _), hcurrent⟩
  rw [hidle]
  nofun

/-- **One event.** -/
theorem inv_step
    {e : Event}
    (h : Inv st)
    (hguard : spares cfg st e = true)
    (hstep : step cfg st e = some st') :
    Inv st' := by
  cases e with
  | login sessionID result =>
      cases hcurrent : st.current <;> simp only [step, hcurrent, reduceCtorEq] at hstep
      split_ifs at hstep with hnew
      cases hstep
      refine ⟨fun k => (h.sound k).frame rfl (by rw [hcurrent]; nofun) (List.mem_cons_of_mem _)
        (.refl _ _) (.refl _ _), List.mem_cons_self, ?_⟩
      by_contra hne
      exact hnew.1 ((h.sound sessionID).token_drawn hne)
  | access sid =>
      cases hcurrent : st.current <;> simp only [step, hcurrent, reduceCtorEq] at hstep
      cases hstep
      have hplain : plain (Token.entry (cfg.setting sid ⟨false, ""⟩)) = true := by
        unfold Token.entry
        split_ifs <;> rfl
      have hbegun : Inv (st.at sid (Token.entry (cfg.setting sid ⟨false, ""⟩)) st.tokens
          st.sessions) := h.begin hcurrent (ready_of_plain hplain _ _)
      exact inv_accessed hbegun
  | logout sid request =>
      cases hcurrent : st.current <;> simp only [step, hcurrent, reduceCtorEq] at hstep
      cases hstep
      exact h.begin hcurrent trivial
  | get sid =>
      cases hcurrent : st.current <;> simp only [step, hcurrent, reduceCtorEq] at hstep
      cases hstep
      have hget := inv_get h hcurrent hguard
      rw [hcurrent] at hget
      exact hget
  | next o =>
      exact inv_next h hguard hstep
  | tick t =>
      simp only [step] at hstep
      split_ifs at hstep with hle
      cases hstep
      refine ⟨fun k => ⟨(h.sound k).exact, fun hne => ((h.sound k).covered hne).later hle,
        (h.sound k).token_drawn, (h.sound k).session_drawn⟩, ?_⟩
      have hready := h.ready
      cases hcurrent : st.current with
      | access sid pc =>
          rw [hcurrent] at hready
          cases pc <;> exact hready
      | logout sid request pc =>
          rw [hcurrent] at hready
          cases pc <;> exact hready
      | _ =>
          rw [hcurrent] at hready
          exact hready

end Steps

section Removal

variable {S : Session.ExpiringStore} {T : Token.ExpiringStore} {L : Locker} {cfg : Config}
  {st st' : State S T L} {sid : String}

/-- The running call does not create the session, and if it is an `AccessToken` call for it,
it has not read the token set yet. -/
def Current.Away (sid : String) : Current → Prop
  | .putSession session _ => session.id ≠ sid
  | .putTokens session _ => session.id ≠ sid
  | .access k pc => k = sid → pc = .start
  | _ => True

/-- No `AccessToken` call for the session has returned a token since `before`. -/
def Refused (sid : String) (before results : List (String × Except Err String)) : Prop :=
  ∃ new, results = new ++ before ∧ ∀ token, (sid, Except.ok token) ∉ new

theorem Refused.cons
    {before results : List (String × Except Err String)} {k : String} {r : Except Err String}
    (h : Refused sid before results)
    (hr : k = sid → ∃ e, r = .error e) :
    Refused sid before ((k, r) :: results) := by
  obtain ⟨new, rfl, hnew⟩ := h
  refine ⟨(k, r) :: new, rfl, fun token hmem => ?_⟩
  rcases List.mem_cons.mp hmem with heq | hmem
  · cases heq
    obtain ⟨e, he⟩ := hr rfl
    cases he
  · exact hnew token hmem

/-- The session has been removed. -/
structure Gone (sid : String) (before : List (String × Except Err String))
    (st : State S T L) : Prop where
  drawn : sid ∈ st.drawn
  session : live st.now (S.entry st.sessions sid) = none
  away : st.current.Away sid
  refused : Refused sid before st.results

variable {before : List (String × Except Err String)}

/-- A `Get` does not bring a session back. -/
theorem live_get_none
    {k : String}
    (hexact : cfg.lifecycle.touchesExactly S st.sessions st.now k = true)
    (h : live st.now (S.entry st.sessions sid) = none) :
    live st.now (S.entry (cfg.lifecycle.get S.toStore st.sessions st.now k).1 sid) = none := by
  obtain ⟨heffect, hothers⟩ := Lifecycle.getEffect hexact
  by_cases hk : sid = k
  · subst hk
    generalize cfg.lifecycle.get S.toStore st.sessions st.now sid = r at heffect ⊢
    obtain ⟨sessions, result⟩ := r
    cases heffect with
    | kept hpruned hresult =>
        rw [hpruned.live_eq]
        exact h
    | removed hlive hexpired hafter | touched hlive hafter =>
        rw [h] at hlive
        cases hlive
  · rw [(hothers sid hk).live_eq]
    exact h

theorem live_delete_none
    (k : String)
    (h : live st.now (S.entry st.sessions sid) = none) :
    live st.now (S.entry (S.delete st.sessions k) sid) = none := by
  rw [S.entry_delete]
  by_cases hk : sid = k
  · subst hk
    rw [Function.update_self]
    rfl
  · rw [Function.update_of_ne hk]
    exact h

/-- An `AccessToken` call goes on or returns. -/
theorem Gone.accessed
    {k : String} {pc : Token.Pc} {tokens : T.State} {sessions : S.State} {lock : L.State}
    (h : Gone sid before st)
    (hsession : live st.now (S.entry sessions sid) = none)
    (hpc : k = sid → pc = .start ∨ ∃ e, pc = .done (.error e)) :
    Gone sid before
      ({ st with tokens := tokens, sessions := sessions, lock := lock }.accessed k pc) := by
  by_cases hdone : ∃ r, pc = .done r
  · obtain ⟨r, rfl⟩ := hdone
    refine ⟨h.drawn, hsession, trivial, h.refused.cons fun hk => ?_⟩
    rcases hpc hk with hstart | ⟨e, he⟩
    · cases hstart
    · cases he
      exact ⟨e, rfl⟩
  · have hgoes : ({ st with tokens := tokens, sessions := sessions, lock := lock } :
        State S T L).accessed k pc =
          { st with tokens := tokens, sessions := sessions, lock := lock, current := .access k pc } := by
      cases pc <;> first | rfl | exact absurd ⟨_, rfl⟩ hdone
    rw [hgoes]
    refine ⟨h.drawn, hsession, fun hk => ?_, h.refused⟩
    rcases hpc hk with hstart | ⟨e, he⟩
    · exact hstart
    · exact absurd ⟨_, he⟩ hdone

/-- Without a session there is no token set to read. -/
theorem Gone.value
    (hinv : Inv st) (h : Gone sid before st)
    (hdropping : st.current.dropping ≠ some sid) :
    T.value st.tokens st.now sid = none := by
  rw [T.value_eq]
  by_contra hne
  obtain ⟨x, hx⟩ := Option.ne_none_iff_exists'.mp hne
  obtain ⟨v, hv⟩ := ((hinv.sound sid).covered hdropping).live hx
  rw [h.session] at hv
  cases hv

/-- An `AccessToken` call that finds no token set returns an error. -/
theorem access_start
    {request : LogoutRequest} {o : Outcome}
    {w : Token.World T.toStore (Session.lifecycleStore cfg.lifecycle S.toStore) L}
    (hvalue : T.value st.tokens st.now sid = none)
    (h : Token.callStep (cfg.setting sid request) (st.world cfg .start .notCalled) 0 o = some w) :
    ∃ e, w.calls 0 = .done (.error e) := by
  have heffect :
      Token.CallEffect (cfg.setting sid request) (st.world cfg .start .notCalled) 0 .start o w :=
    Token.callStep_effect h
  clear h
  generalize hworld : st.world cfg .start .notCalled = before at heffect
  cases heffect with
  | firstGet =>
      subst hworld
      have hget : (T.get st.tokens st.now sid).2 = .error Token.errNotFound := by
        rw [T.get_result, hvalue]
        rfl
      rw [Token.goto_calls_self]
      exact ⟨_, congrArg Token.afterFirstGet hget⟩
  | firstGetFault =>
      rw [Token.goto_calls_self]
      exact ⟨_, rfl⟩

/-- No step of an `AccessToken` call brings a session back. -/
theorem AccessEffect.live_none
    {k : String} {pc pc' : Token.Pc} {tokens : T.State} {sessions : S.State}
    (heffect : AccessEffect cfg st k pc tokens sessions pc')
    (hcurrent : st.current = .access k pc) (o : Outcome)
    (hguard : spares cfg st (.next o) = true)
    (h : live st.now (S.entry st.sessions sid) = none) :
    live st.now (S.entry sessions sid) = none := by
  cases heffect with
  | expiry hpc =>
      subst hpc
      exact live_get_none (by simpa [spares, hcurrent] using hguard) h
  | dropSession hpc =>
      exact live_delete_none k h
  | read _ _ | skip _ _ | persist _ | dropTokens _ =>
      exact h

/-- A step of a logout leaves the sessions alone or deletes one. -/
theorem logoutStep_sessions
    {k : String} {request : LogoutRequest} {pc : LogoutPc} {o : Outcome}
    {w : Token.World T.toStore (Session.lifecycleStore cfg.lifecycle S.toStore) L}
    (hstep : Token.logoutStep (cfg.setting k request) (st.world cfg .idle pc) o = some w) :
    w.sessions = st.sessions ∨ w.sessions = S.delete st.sessions k := by
  cases Token.logoutStep_effect hstep with
  | deleteSession _ =>
      exact Or.inr rfl
  | skip _ | start | load | loadFault | deleteTokens | endSession _ | fail =>
      exact Or.inl rfl

theorem Gone.loggedOut
    {k : String} {request : LogoutRequest} {pc : LogoutPc} {o : Outcome}
    {w : Token.World T.toStore (Session.lifecycleStore cfg.lifecycle S.toStore) L}
    (h : Gone sid before st)
    (hstep : Token.logoutStep (cfg.setting k request) (st.world cfg .idle pc) o = some w) :
    Gone sid before
      ({ st with tokens := w.tokens, sessions := w.sessions }.loggedOut k request w.logout) := by
  have hsession : live st.now (S.entry w.sessions sid) = none := by
    rcases logoutStep_sessions hstep with hsame | hdeleted
    · rw [hsame]
      exact h.session
    · rw [hdeleted]
      exact live_delete_none k h.session
  cases w.logout <;> exact ⟨h.drawn, hsession, trivial, h.refused⟩

theorem Gone.next
    {o : Outcome}
    (hinv : Inv st) (h : Gone sid before st)
    (hguard : spares cfg st (.next o) = true)
    (hstep : next cfg st o = some st') :
    Gone sid before st' := by
  have haway := h.away
  unfold Orphans.next at hstep
  split at hstep
  · rename_i session tokens hcurrent
    rw [hcurrent] at haway
    have hguard' : (cfg.lifecycle.prepare st.now session).expiresAt = session.expiresAt ∧
        S.exact st.now session.expiresAt = true := by
      simpa [spares, hcurrent] using hguard
    simp only at hstep
    split at hstep <;> cases hstep
    · rename_i e herr
      refine ⟨h.drawn, ?_, trivial, h.refused⟩
      have hsame : (cfg.lifecycle.put S.toStore st.sessions st.now session).1 = st.sessions :=
        S.put_error herr
      simp only [hsame]
      exact h.session
    · rename_i hok
      refine ⟨h.drawn, ?_, haway, h.refused⟩
      simp only [entry_putSession hguard' hok, Function.update_of_ne (Ne.symm haway)]
      exact h.session
  · rename_i session tokens hcurrent
    simp only at hstep
    split at hstep <;> cases hstep <;> exact ⟨h.drawn, h.session, trivial, h.refused⟩
  · rename_i k hcurrent
    cases hstep
    exact ⟨h.drawn, live_delete_none k h.session, trivial, h.refused⟩
  · rename_i k pc hcurrent
    rw [hcurrent] at haway
    split_ifs at hstep with hfault
    simp only [Option.map_eq_some_iff] at hstep
    obtain ⟨w, hw, rfl⟩ := hstep
    have heffect := accessEffect_of_callStep (by simpa using hfault) hw
    refine h.accessed (heffect.live_none hcurrent _ hguard h.session) fun hk => Or.inr ?_
    subst hk
    obtain rfl := haway rfl
    exact access_start (h.value hinv (by rw [hcurrent]; nofun)) hw
  · simp only [Option.map_eq_some_iff] at hstep
    obtain ⟨w, hw, rfl⟩ := hstep
    exact h.loggedOut hw
  · simp only [Option.map_eq_some_iff] at hstep
    obtain ⟨w, hw, rfl⟩ := hstep
    exact h.loggedOut hw
  · cases hstep

/-- **A session that has been removed stays so**, and its `AccessToken` calls return errors. -/
theorem Gone.step
    {e : Event}
    (hinv : Inv st) (h : Gone sid before st)
    (hguard : spares cfg st e = true)
    (hstep : step cfg st e = some st') :
    Gone sid before st' := by
  cases e with
  | login sessionID result =>
      cases hcurrent : st.current <;> simp only [Orphans.step, hcurrent, reduceCtorEq] at hstep
      split_ifs at hstep with hnew
      cases hstep
      refine ⟨List.mem_cons_of_mem _ h.drawn, h.session, ?_, h.refused⟩
      rintro rfl
      exact hnew.1 h.drawn
  | access k =>
      cases hcurrent : st.current <;> simp only [Orphans.step, hcurrent, reduceCtorEq] at hstep
      cases hstep
      refine h.accessed h.session fun _ => ?_
      unfold Token.entry
      split_ifs
      · exact Or.inl rfl
      · exact Or.inr ⟨_, rfl⟩
  | logout k request =>
      cases hcurrent : st.current <;> simp only [Orphans.step, hcurrent, reduceCtorEq] at hstep
      cases hstep
      exact ⟨h.drawn, h.session, trivial, h.refused⟩
  | get k =>
      cases hcurrent : st.current <;> simp only [Orphans.step, hcurrent, reduceCtorEq] at hstep
      cases hstep
      simp only [spares, Bool.and_eq_true] at hguard
      exact ⟨h.drawn, live_get_none hguard.2 h.session, trivial, h.refused⟩
  | next o =>
      exact h.next hinv hguard hstep
  | tick t =>
      simp only [Orphans.step] at hstep
      split_ifs at hstep with hle
      cases hstep
      exact ⟨h.drawn, Expiring.live_eq_none_later h.session hle, h.away, h.refused⟩

end Removal

section Results

/-- Nothing is stored and nothing has been called. -/
def State.initial {S : Session.ExpiringStore} {T : Token.ExpiringStore} {L : Locker}
    (now : Int) (sessions : S.State) (tokens : T.State) (lock : L.State) : State S T L :=
  ⟨now, sessions, tokens, lock, .idle, [], []⟩

/-- The token store holds a set only for a session that the session store holds. -/
def NoOrphans {S : Session.ExpiringStore} {T : Token.ExpiringStore} {L : Locker}
    (st : State S T L) : Prop :=
  ∀ sid x, T.value st.tokens st.now sid = some x → ∃ v, (S.get st.sessions st.now sid).2 = .ok v

theorem inv_initial
    {S : Session.ExpiringStore} {T : Token.ExpiringStore} {L : Locker}
    {now : Int} {sessions : S.State} {tokens : T.State} {lock : L.State}
    (hsessions : ∀ k, S.entry sessions k = none)
    (htokens : ∀ k, T.entry tokens k = none) :
    Inv (State.initial now sessions tokens lock) := by
  refine ⟨fun k => ⟨?_, fun _ => .of_not_live ?_, fun hne => absurd (htokens k) hne,
    fun hne => absurd (hsessions k) hne⟩, trivial⟩
  · intro v d hv
    cases (hsessions k).symm.trans hv
  · rw [State.initial, htokens k]
    rfl

/-- **No orphan token sets.**  In every run in which no `Get` removes a session of which a
token set is left and the entries of a login end together: between two calls the token
store holds a set only for a session that the session store holds, and once a session is
gone no `AccessToken` call for it returns a token. -/
theorem no_orphan_tokens
    (S : Session.ExpiringStore) (T : Token.ExpiringStore) (L : Locker) (cfg : Config)
    (now : Int) (sessions : S.State) (tokens : T.State) (lock : L.State)
    (hsessions : ∀ k, S.entry sessions k = none)
    (htokens : ∀ k, T.entry tokens k = none)
    (es : List Event) (st : State S T L)
    (hguard : Run.Guarded (step cfg) (fun st e => spares cfg st e = true)
      (State.initial now sessions tokens lock) es)
    (hrun : Run.exec (step cfg) (State.initial now sessions tokens lock) es = some st)
    (hidle : st.current = .idle) :
    NoOrphans st ∧
      ∀ sid ∈ st.drawn, (∀ v, (S.get st.sessions st.now sid).2 ≠ .ok v) →
        ∀ es' st',
          Run.Guarded (step cfg) (fun st e => spares cfg st e = true) st es' →
          Run.exec (step cfg) st es' = some st' →
            Refused sid st.results st'.results := by
  have hinv : Inv st :=
    Run.invariant_of_guarded (I := Inv) (fun _ _ _ h hg hstep => inv_step h hg hstep)
      (inv_initial hsessions htokens) hguard hrun
  refine ⟨?_, ?_⟩
  · intro sid x hx
    rw [T.value_eq] at hx
    obtain ⟨v, hv⟩ := ((hinv.sound sid).covered (by rw [hidle]; nofun)).live hx
    exact ⟨v, S.get_ok_iff.mpr hv⟩
  · intro sid hdrawn hgone es' st' hguard' hrun'
    have hsession : live st.now (S.entry st.sessions sid) = none := by
      by_contra hne
      obtain ⟨v, hv⟩ := Option.ne_none_iff_exists'.mp hne
      exact hgone v (S.get_ok_iff.mpr hv)
    have hstart : Gone sid st.results st :=
      ⟨hdrawn, hsession, by rw [hidle]; trivial, [], rfl, by simp⟩
    have hend : Inv st' ∧ Gone sid st.results st' :=
      Run.invariant_of_guarded (I := fun st => Inv st ∧ Gone sid _ st)
        (fun _ _ _ h hg hstep => ⟨inv_step h.1 hg hstep, h.2.step h.1 hg hstep⟩)
        ⟨hinv, hstart⟩ hguard' hrun'
    exact hend.2.refused

/-- Eight hours of session, thirty minutes of idle time, all collaborators present. -/
def sampleConfig : Config where
  lifecycle := Session.exampleLifecycle
  service := ⟨true, true, "https://gw/callback", 0, 0, id⟩
  manager := ⟨true, true, true, true, 0, 0⟩

/-- The memory stores, empty. -/
def emptyState : State Session.memoryExpiring Token.memoryExpiring Token.memoryLocker :=
  State.initial (S := Session.memoryExpiring) (T := Token.memoryExpiring) (L := Token.memoryLocker)
    Token.sampleNow Session.MemoryState.empty Table.empty Token.MemoryLocks.empty

/-- A whole login. -/
def loginSteps : List Event :=
  [.login "sid" ⟨⟨"alice", "idp", "", "", "", []⟩, ⟨"access", "refresh", "id", 0⟩⟩,
    .next .ok, .next .ok]

/-- A login, a read a minute later, and a logout. -/
def loginToLogout : List Event :=
  loginSteps.append [.tick (Token.sampleNow + 60000000000), .get "sid",
    .logout "sid" ⟨false, "/"⟩, .next .ok, .next .ok, .next .ok, .next .ok]

theorem no_orphan_after_logout :
    ∃ st st' : State Session.memoryExpiring Token.memoryExpiring Token.memoryLocker,
      Run.exec (step sampleConfig) emptyState loginToLogout = some st ∧
      st.drawn = ["sid"] ∧
      Run.exec (step sampleConfig) st [.access "sid", .next .ok] = some st' ∧
      NoOrphans st ∧ Refused "sid" st.results st'.results := by
  refine ⟨_, _, rfl, rfl, rfl, ?_⟩
  have hmain := no_orphan_tokens Session.memoryExpiring Token.memoryExpiring Token.memoryLocker
    sampleConfig Token.sampleNow Session.MemoryState.empty Table.empty Token.MemoryLocks.empty
    (fun _ => rfl) (fun _ => rfl) loginToLogout _ (by decide +kernel) rfl rfl
  exact ⟨hmain.1, hmain.2 "sid" (by decide +kernel) nofun [.access "sid", .next .ok] _
    (by decide +kernel) rfl⟩

/-- A session is read half an hour after its login: it is removed as idle, its token set
stays, and an `AccessToken` call returns the token. -/
theorem orphan_after_idle :
    ∃ st st' : State Session.memoryExpiring Token.memoryExpiring Token.memoryLocker,
      Run.exec (step sampleConfig) emptyState
          (loginSteps ++ [.tick (Token.sampleNow + 1800000000000), .get "sid"]) = some st ∧
      st.current = .idle ∧
      ¬ NoOrphans st ∧
      Run.exec (step sampleConfig) st [.access "sid", .next .ok, .next .ok] = some st' ∧
      st'.results = [("sid", .ok "access")] := by
  refine ⟨_, _, rfl, rfl, ?_, rfl, rfl⟩
  intro h
  obtain ⟨v, hv⟩ := h "sid" ⟨"access", "refresh", "id", -62135596800⟩ (by decide +kernel)
  cases hv

/-- A `SessionTTL` of nine hours: the session is capped at eight, its token set is not. -/
example :
    ∃ st : State Session.memoryExpiring Token.memoryExpiring Token.memoryLocker,
      Run.exec (step { sampleConfig with
          service := { sampleConfig.service with sessionTTL := 9 * Duration.hour } }) emptyState
        (loginSteps.append [.tick (Token.sampleNow + 28800000000000)]) = some st ∧
      ¬ NoOrphans st := by
  refine ⟨_, rfl, ?_⟩
  intro h
  obtain ⟨v, hv⟩ := h "sid" ⟨"access", "refresh", "id", -62135596800⟩ (by decide +kernel)
  cases hv

end Results

end Orphans
end GatewayRuntime
